import Mathlib.Data.List.Basic

/-!
# Symbolic messages and a network attacker

Messages are terms over data that anybody can make and secrets that are drawn
once. A public-key box opens with the private key of its recipient, an
authenticated box with the key that sealed it. The attacker replays what it has
seen, makes boxes with keys it knows and opens those of compromised recipients.
It is taken to know every plaintext.

The one induction over what the attacker can derive is `Derivable.guarded`:
a secret that is shown only inside boxes stays unknown, and then every
authenticated box under it is one the attacker has seen.
-/

namespace EncryptionGateway.Foundation

/-- `K` names the recipients, `D` is public data and `M` are the plaintexts of
authenticated boxes. -/
inductive Term (K D M : Type)
  | data (d : D)
  | secret (i : ℕ)
  | wrapped (recipient : K) (seed message : Term K D M)
  | sealed (key iv : Term K D M) (text : M)
deriving DecidableEq

/-- What an attacker who has seen the messages `seen` can put together. -/
inductive Derivable {K D M : Type} (compromised : K → Prop) (seen : List (Term K D M)) :
    Term K D M → Prop
  | replay {t : Term K D M} (h : t ∈ seen) : Derivable compromised seen t
  | data (d : D) : Derivable compromised seen (.data d)
  | wrap (r : K) {s m : Term K D M} (hs : Derivable compromised seen s)
      (hm : Derivable compromised seen m) : Derivable compromised seen (.wrapped r s m)
  | unwrap {r : K} {s m : Term K D M} (hr : compromised r)
      (h : Derivable compromised seen (.wrapped r s m)) : Derivable compromised seen m
  | lock {k iv : Term K D M} (hk : Derivable compromised seen k)
      (hiv : Derivable compromised seen iv) (text : M) :
      Derivable compromised seen (.sealed k iv text)

variable {K D M : Type} {compromised : K → Prop} {seen : List (Term K D M)} {i : ℕ}
  {P Q : Term K D M → M → Prop} {t : Term K D M}

/-- The term neither shows the secret `i` nor an authenticated box under it,
except boxes that satisfy `P`. -/
def Guarded (compromised : K → Prop) (i : ℕ) (P : Term K D M → M → Prop) : Term K D M → Prop
  | .data _ => True
  | .secret j => j ≠ i
  | .wrapped r _ m => compromised r → Guarded compromised i P m
  | .sealed k iv text => k = .secret i → P iv text

theorem Guarded.mono (h : Guarded compromised i P t) (hPQ : ∀ iv text, P iv text → Q iv text) :
    Guarded compromised i Q t := by
  induction t with
  | data d => trivial
  | secret j => exact h
  | wrapped r s m _ ih => exact fun hr => ih (h hr)
  | sealed k iv text => exact fun hk => hPQ iv text (h hk)

/-- The attacker cannot leave what guards a secret. -/
theorem Derivable.guarded (h : Derivable compromised seen t)
    (hseen : ∀ t ∈ seen, Guarded compromised i P t) : Guarded compromised i P t := by
  induction h with
  | replay hmem => exact hseen _ hmem
  | data d => trivial
  | wrap r _ _ _ ihm => exact fun _ => ihm
  | unwrap hr _ ih => exact ih hr
  | lock _ _ text ihk _ =>
      intro heq
      rw [heq] at ihk
      exact absurd rfl ihk

/-- Secrecy. -/
theorem not_derivable_secret (hseen : ∀ t ∈ seen, Guarded compromised i P t) :
    ¬ Derivable compromised seen (.secret i) :=
  fun h => h.guarded hseen rfl

/-- Authenticity. -/
theorem Derivable.authentic {iv : Term K D M} {text : M}
    (h : Derivable compromised seen (.sealed (.secret i) iv text))
    (hseen : ∀ t ∈ seen, Guarded compromised i P t) : P iv text :=
  h.guarded hseen rfl

end EncryptionGateway.Foundation
