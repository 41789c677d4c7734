import Mathlib.Algebra.GroupWithZero.Nat
import Mathlib.Data.List.DropRight
import Mathlib.Data.List.Infix
import Zemo.Lib.Checked

set_option autoImplicit false

/-! # Names a proposal may give

The policy of the organizer on the folders and the file name of a proposed destination: their
length in UTF-16 units, the characters they may have, and the names Windows reserves. -/

namespace Zemo

/-! ## Characters -/

/-- The number of UTF-16 units of a character. -/
def utf16Units (c : Char) : Nat := if c.toNat < 0x10000 then 1 else 2

/-- `encode_utf16().count()`. -/
def utf16Count (value : String) : Nat := (value.toList.map utf16Units).sum

/-- `char::is_control`: the category `Cc`. -/
def isControl (c : Char) : Bool := c.toNat < 0x20 || (0x7f ≤ c.toNat && c.toNat ≤ 0x9f)

/-- `char::is_whitespace`: the property `White_Space`. -/
def isWhiteSpace (c : Char) : Bool :=
  (0x9 ≤ c.toNat && c.toNat ≤ 0xd) || c.toNat = 0x20 || c.toNat = 0x85 || c.toNat = 0xa0
    || c.toNat = 0x1680 || (0x2000 ≤ c.toNat && c.toNat ≤ 0x200a) || c.toNat = 0x2028
    || c.toNat = 0x2029 || c.toNat = 0x202f || c.toNat = 0x205f || c.toNat = 0x3000

/-- `is_windows_invalid`. -/
def isWindowsInvalid (c : Char) : Bool :=
  c = '\x00' || isControl c || c ∈ ['<', '>', ':', '"', '|', '?', '*']

def isAsciiAlphabetic (c : Char) : Bool := ('a' ≤ c && c ≤ 'z') || ('A' ≤ c && c ≤ 'Z')

/-- `has_drive_prefix`. -/
def hasDrivePrefix (input : List Char) : Bool :=
  match input with
  | first :: ':' :: _ => isAsciiAlphabetic first
  | _ => false

/-- `is_reserved_windows_name`. -/
def isReservedWindowsName (input : List Char) : Bool :=
  let stem := ((input.takeWhile (· ≠ '.')).rdropWhile (fun c => c = ' ' || c = '.')).map
    Char.toUpper
  stem ∈ ["CON".toList, "PRN".toList, "AUX".toList, "NUL".toList]
    || ["COM".toList, "LPT".toList].any fun device =>
      device.isPrefixOf stem && (stem.drop 3).length = 1
        && (stem.drop 3).all fun digit => '1' ≤ digit && digit ≤ '9'

/-! ## The policy -/

inductive VirtualPathError where
  | empty
  | traversalOrSeparator
  | absoluteOrDrivePrefix
  | invalidCharacter
  | reservedWindowsName
  | tooDeep
  | tooLong
deriving DecidableEq, Repr

structure VirtualPathPolicy where
  maximumDepth : Nat := 6
  maximumPathUtf16 : Nat := 240
  maximumSegmentUtf16 : Nat := 80
  maximumFilenameUtf16 : Nat := 160
deriving DecidableEq

open Checked

/-- `validate_component`. -/
def validateComponent (input : String) (maximumUtf16 : Nat) : Except VirtualPathError Unit := do
  let chars := input.toList
  require (¬chars.all isWhiteSpace) .empty
  require (input ≠ "." ∧ input ≠ ".." ∧ '/' ∉ chars ∧ '\\' ∉ chars) .traversalOrSeparator
  require (hasDrivePrefix chars = false) .absoluteOrDrivePrefix
  require (¬chars.any isWindowsInvalid ∧ chars.getLast? ≠ some ' ' ∧ chars.getLast? ≠ some '.')
    .invalidCharacter
  require (isReservedWindowsName chars = false) .reservedWindowsName
  require (utf16Count input ≤ maximumUtf16) .tooLong

namespace VirtualPathPolicy

variable (policy : VirtualPathPolicy)

/-- `validate_user_destination`. -/
def validateUserDestination (segments : List String) : Except VirtualPathError Unit := do
  require (segments.length ≤ policy.maximumDepth) .tooDeep
  forM segments fun segment => validateComponent segment policy.maximumSegmentUtf16

/-- `validate_user_filename`. -/
def validateUserFilename (filename : String) : Except VirtualPathError Unit :=
  validateComponent filename policy.maximumFilenameUtf16

/-- `path_length_utf16`. -/
def pathLengthUtf16 (destination : List String) (filename : String) : Nat :=
  (destination.map utf16Count).sum + utf16Count filename + destination.length

end VirtualPathPolicy

end Zemo

/-! ## Texts

The operations of the standard library on texts that the organizer uses. The case mappings of
Unicode are not among them: `to_lowercase` and `to_uppercase` are parameters of the engine. -/

namespace Zemo.Organizer

/-- `to_ascii_lowercase`. -/
def toAsciiLowercase (value : String) : String := String.ofList (value.toList.map Char.toLower)

/-- `eq_ignore_ascii_case`. -/
def eqIgnoreAsciiCase (left right : String) : Bool :=
  left.toList.map Char.toLower = right.toList.map Char.toLower

/-- `str::trim` on characters. -/
def trimChars (value : List Char) : List Char :=
  (value.dropWhile isWhiteSpace).rdropWhile isWhiteSpace

/-- `str::trim`. -/
def trim (value : String) : String := String.ofList (trimChars value.toList)

/-- `str::contains` of a text. -/
def containsText (haystack needle : String) : Bool := needle.toList <:+: haystack.toList

/-- `contains_any`. -/
def containsAny (haystack : String) (needles : List String) : Bool :=
  needles.any (containsText haystack)

/-- `str::starts_with`. -/
def startsWith (value start : String) : Bool := start.toList <+: value.toList

/-- `str::ends_with`. -/
def endsWith (value ending : String) : Bool := ending.toList <:+ value.toList

/-- `str::rsplit_once`. -/
def rsplitOnce (separator : Char) (value : String) : Option (String × String) :=
  let chars := value.toList
  if separator ∈ chars then
    some (String.ofList (chars.rdropWhile (· ≠ separator)).dropLast,
      String.ofList (chars.rtakeWhile (· ≠ separator)))
  else none

/-- `str::split` at the characters of a set. -/
def splitAny (separator : Char → Bool) (value : String) : List String :=
  (value.toList.splitOnP separator).map String.ofList

/-- `str::replace` on characters; `skip` are left of the last occurrence. -/
def replaceChars (pattern replacement : List Char) : List Char → Nat → List Char
  | [], _ => []
  | _ :: rest, skip + 1 => replaceChars pattern replacement rest skip
  | c :: rest, 0 =>
      if pattern <+: c :: rest then
        replacement ++ replaceChars pattern replacement rest (pattern.length - 1)
      else c :: replaceChars pattern replacement rest 0

/-- `str::replace`, of a text that is not empty. -/
def replaceText (value pattern replacement : String) : String :=
  String.ofList (replaceChars pattern.toList replacement.toList value.toList 0)

/-- `chars().take(limit)`. -/
def takeChars (limit : Nat) (value : String) : String := String.ofList (value.toList.take limit)

/-- Members without repetition, each where it is first. -/
def dedupBy {α κ : Type} [DecidableEq κ] (key : α → κ) (members : List α) : List α :=
  members.foldl (fun kept a => if key a ∈ kept.map key then kept else kept ++ [a]) []

example : rsplitOnce '.' "archive.tar.gz" = some ("archive.tar", "gz") := by decide +kernel

example : replaceText "{date}_{date}" "{date}" "2024" = "2024_2024" := by decide +kernel

end Zemo.Organizer
