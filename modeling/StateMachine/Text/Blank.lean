/-!
The blanks of Unicode: the 25 characters with the property White_Space.
-/

set_option autoImplicit false

namespace StateMachine.Text

/-- The ranges of code points that are blanks. -/
def blankRanges : List (Nat × Nat) :=
  [(0x09, 0x0D), (0x20, 0x20), (0x85, 0x85), (0xA0, 0xA0), (0x1680, 0x1680), (0x2000, 0x200A),
    (0x2028, 0x2029), (0x202F, 0x202F), (0x205F, 0x205F), (0x3000, 0x3000)]

def isBlank (c : Char) : Bool :=
  blankRanges.any fun range ↦ range.1 ≤ c.toNat && c.toNat ≤ range.2

/-- The text without the blanks it starts with. -/
def skipBlanks (text : List Char) : List Char :=
  text.dropWhile isBlank

theorem length_skipBlanks_le (text : List Char) : (skipBlanks text).length ≤ text.length :=
  (List.dropWhile_suffix _).length_le

end StateMachine.Text
