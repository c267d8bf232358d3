import Miuturn.JsonSearch
import Miuturn.RustStd.Utf8

set_option autoImplicit false

/-! # Bearer tokens (`oauth.rs`)

A token is a header, a payload and a signature. The payload should be a JSON object;
`extract_json_field` looks in it for the name of a member as text, without parsing it, and both
`validate_token` and `get_user_info` read the payload before anything is known of the signature.

Decoding base64 and the HMAC are the world's (`OAuthWorld`): what is said here holds of any. -/

open RustStd

namespace Miuturn

/-! ## The code -/

structure OAuthConfig where
  jwtSecret : String
  issuer : String
  audience : String
  enabled : Bool

/-- The two crates that `oauth.rs` calls. -/
structure OAuthWorld where
  /-- `base64::engine::general_purpose::STANDARD`. -/
  standardDecode : List Char → Option Bytes
  /-- Of a message under a key. -/
  hmacSha256 : Bytes → Bytes → Bytes

/-- `base64_decode`: the letters of base64url replaced, and the padding added. -/
def base64Decode (W : OAuthWorld) (input : List Char) : Option Bytes :=
  let base64 := input.map (fun c => if c = '-' then '+' else if c = '_' then '/' else c)
  let size := (base64.map Char.utf8Size).sum
  W.standardDecode (base64 ++ List.replicate ((4 - size % 4) % 4) '=')

def computeHmacSha256 (W : OAuthWorld) (message : List Char) (key : String) : Bytes :=
  W.hmacSha256 (strBytes key) (strBytes (String.ofList message))

/-- The three parts of a token, and its payload as text. -/
structure OpenToken where
  header : List Char
  payload : List Char
  signature : List Char
  text : String

/-- The values that `validate_token` uses. -/
structure TokenClaims where
  userId : String
  exp : ℕ
  iss : Option String
  aud : Option String

/-- The checks of `validate_token` behind the lookups. -/
def accepts (W : OAuthWorld) (config : OAuthConfig) (now : ℕ) (t : OpenToken) (c : TokenClaims) :
    Bool :=
  !decide (c.exp < now) &&
    (config.issuer == "" || c.iss == some config.issuer) &&
    (config.audience == "" || c.aud == some config.audience) &&
    (base64Decode W t.signature ==
      some (computeHmacSha256 W (t.header ++ '.' :: t.payload) config.jwtSecret))

end Miuturn
