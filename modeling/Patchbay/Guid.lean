import Patchbay.Decimal.Numeral
import Patchbay.Text.Split

/-!
# GUIDs

`isGuid` — whether a text is a GUID: 32 hexadecimal digits, with or without dashes, braces and the
marks of a URN. The digits are read as liberally as any hexadecimal number.
-/

namespace Patchbay

namespace Guid

/-- The digits of a GUID, without the marks of a URN, without braces at the ends, and without
dashes. -/
def digits (cs : List Char) : List Char :=
  let bare := Text.eraseAll "uuid:".toList (Text.eraseAll "urn:".toList cs)
  (Text.trimBy (fun c => c == '\x7b' || c == '\x7d') bare).filter (· != '-')

end Guid

/-- Whether a text is a GUID. -/
def isGuid (s : String) : Bool :=
  let digits := Guid.digits s.toList
  digits.length == 32 && (readHex? digits).isSome

end Patchbay
