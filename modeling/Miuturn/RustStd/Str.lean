import Miuturn.RustStd.Basic
import Mathlib.Data.List.DropRight

set_option autoImplicit false

/-! # Searching, slicing and trimming texts

What `str` offers to code that takes a text apart by hand. A text is its list of characters;
positions are counted in bytes, as in Rust, where they show. -/

namespace RustStd

section AfterFirst

variable {q c : Char} {p l k : List Char}

end AfterFirst

end RustStd
