import Mathlib.Data.List.Basic

/-! A text is a list of characters. -/
namespace DracVms

instance lawfulBEq_text : LawfulBEq (List Char) := inferInstance

end DracVms
