/-!
The CRC-32C checksum: the remainder of the text's bits, lowest first, modulo the Castagnoli
polynomial, with all bits flipped before and after.
-/

set_option autoImplicit false

namespace StateMachine.Checksum

/-- The Castagnoli polynomial with its bits reversed. -/
def polynomial : UInt32 := 0x82F63B78

/-- One bit of the division. -/
def shift (remainder : UInt32) : UInt32 :=
  if remainder &&& 1 = 1 then (remainder >>> 1) ^^^ polynomial else remainder >>> 1

/-- One byte of the division. -/
def update (remainder : UInt32) (byte : UInt8) : UInt32 :=
  shift (shift (shift (shift (shift (shift (shift (shift (remainder ^^^ byte.toUInt32))))))))

/-- The checksum of some bytes. -/
def ofBytes (bytes : List UInt8) : UInt32 :=
  bytes.foldl update 0xFFFFFFFF ^^^ 0xFFFFFFFF

/-- Eight hexadecimal digits, the highest first. -/
def hexText (checksum : UInt32) : List Char :=
  [28, 24, 20, 16, 12, 8, 4, 0].map fun place ↦
    Nat.digitChar ((checksum.toNat >>> place) % 16)

/-- The checksum of a text in UTF-8, as eight hexadecimal digits. -/
def ofText (text : String) : String :=
  String.ofList (hexText (ofBytes text.toUTF8.toList))

end StateMachine.Checksum
