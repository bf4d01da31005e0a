import EncryptionGateway.JavaScript.Text

/-!
# Parsed URLs

The components of a `URL` object that the gateway reads, and what holds of
those a parser produces. The parser itself is a parameter.
-/

namespace EncryptionGateway.JavaScript

/-- `port` is `none` where `url.port` is empty. -/
structure Url where
  protocol : String
  hostname : String
  port : Option ℕ
  pathname : String
  href : String
deriving DecidableEq

namespace Url

/-- The port of a scheme that a URL of this scheme leaves out. -/
def defaultPort (protocol : String) : Option ℕ :=
  if protocol = "https:" then some 443 else if protocol = "http:" then some 80 else none

/-- A host and the port it spells, if any. -/
def spell (hostname : String) (port : Option ℕ) : String :=
  match port with
  | none => hostname
  | some p => hostname ++ ":" ++ toString p

/-- `url.host`. -/
def host (u : Url) : String := spell u.hostname u.port

/-- The port a connection is made to. -/
def effectivePort (u : Url) : Option ℕ := u.port.or (defaultPort u.protocol)

/-- The authority of an `http` or `https` URL as a parser leaves it: a host in
lower case, in which only an address in brackets has colons, and never the
default port. -/
structure CanonicalAuthority (u : Url) : Prop where
  scheme : u.protocol = "https:" ∨ u.protocol = "http:"
  lower : toLowerCase u.hostname = u.hostname
  bracketed : ':' ∈ u.hostname.toList → u.hostname.toList.head? = some '['
  port_ne : u.port ≠ defaultPort u.protocol

end Url

/-- `new URL(text)`, with `none` where it throws. -/
abbrev UrlParser := String → Option Url

end EncryptionGateway.JavaScript
