import EncryptionGateway.Channel.MobileDelivery
import EncryptionGateway.Client.GatewayHttpClient
import EncryptionGateway.Client.OkHttpInterceptor

/-!
# What an app sees through an adapter

The OkHttp interceptor and the `URLRequest` adapter turn what their SDK returns
into a response. Such a response is a marked gateway error, or it shows the
status, the headers and the data of the backend.
-/

namespace EncryptionGateway.Proxy

def HeaderText.texts : HeaderText → List String
  | .single text => [text]
  | .repeated texts => texts

end EncryptionGateway.Proxy

namespace EncryptionGateway.Channel

open JavaScript Foundation Common Encryption Proxy Client

variable {N B K : Type} [JsNumber N]

section Reading

variable {client : MobileClient N B} {crypto : Crypto B K} {reply : UpstreamReply N}
  {r : SendResult N}

end Reading

section OkHttp

open Client.OkHttp GatewayOkHttpInterceptor

variable {okhttp : OkHttp.Platform N} {json : JsonText N} {reply : UpstreamReply N}

variable {platform : MobilePlatform N B} {crypto : Crypto B K} {r : SendResult N}

end OkHttp

/-! ## URLRequest -/

section UrlSession

open Client.UrlSession GatewayHTTPClient

variable {apple : UrlSession.Platform N} {json : JsonText N} {reply : UpstreamReply N}
  {platform : MobilePlatform N B} {crypto : Crypto B K} {r : SendResult N}

end UrlSession

namespace SdkCall

section Samples

open Client.OkHttp

/-- OkHttp with the JSON texts of the gateway. -/
def sampleOkHttp : OkHttp.Platform ℤ where
  readString _ _ := ""
  toMediaTypeOrNull text := if text = "application/json" then some .applicationJson else none
  acceptsHeader _ _ := true
  jsonObject _ := none
  jsonArray _ := none
  toText := (JsonText.standard ℤ).write

/-- The payment of the phone as a request of OkHttp. -/
def paymentUrl (path : String) : HttpUrl :=
  ⟨"https", "api.example.com", 443, path, none, none, "https://api.example.com" ++ path⟩

def sampleInterceptor : GatewayOkHttpInterceptor :=
  ⟨paymentUrl "/", 512 * 1024, rfl, ⟨rfl, rfl, rfl⟩, by decide⟩

end Samples

section Samples

open Client.UrlSession

def sampleApple : UrlSession.Platform ℤ where
  jsonObject _ := none
  utf8 _ := none
  acceptsResponse _ _ := true

def paymentComponents (path : String) : URLComponents :=
  ⟨some "https", some "api.example.com", none, none, none, path, none, none⟩

def sampleAdapter : GatewayHTTPClient :=
  ⟨paymentComponents "/", 512 * 1024, ⟨rfl, rfl⟩, ⟨Or.inr rfl, rfl, rfl, rfl, rfl⟩, by decide⟩

end Samples

end SdkCall

end EncryptionGateway.Channel
