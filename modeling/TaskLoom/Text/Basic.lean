/-!
# Text as characters and as bytes

Names and sources are `String`s.  Source files are scanned byte by byte, so a text can be taken
apart into its UTF-8 bytes and put together again; everything else works on its characters.
-/

namespace TaskLoom.Text

/-! ### Bytes -/

/-- The UTF-8 bytes of a text. -/
def bytes (s : String) : List UInt8 := s.toByteArray.data.toList

/-- The text of a byte list that is no UTF-8: each byte outside ASCII is shown as the replacement
character. -/
def lossy (bs : List UInt8) : String :=
  String.ofList (bs.map fun b => if b < 128 then Char.ofNat b.toNat else '\uFFFD')

/-- The text that a byte list encodes. -/
def ofBytes (bs : List UInt8) : String :=
  (String.fromUTF8? ⟨bs.toArray⟩).getD (lossy bs)

theorem bytes_append (s t : String) : bytes (s ++ t) = bytes s ++ bytes t := by
  simp [bytes]

theorem ofBytes_bytes (s : String) : ofBytes (bytes s) = s := by
  have h : (⟨(bytes s).toArray⟩ : ByteArray) = s.toByteArray := by simp [bytes]
  simp [ofBytes, h, String.fromUTF8?, s.isValidUTF8, String.fromUTF8]

/-! ### Beginnings, ends and blanks -/

/-- Whether `s` starts with `head`. -/
def beginsWith (s head : String) : Bool := head.toList.isPrefixOf s.toList

/-- Whether `s` ends with `tail`; the two ends of one text may overlap. -/
def endsWith (s tail : String) : Bool := tail.toList.isSuffixOf s.toList

/-- The characters that count as white space at the ends of a text. -/
def isBlank (c : Char) : Bool :=
  let n := c.toNat
  (9 ≤ n && n ≤ 13) || n == 0x20 || n == 0x85 || n == 0xA0 || n == 0x1680 ||
    (0x2000 ≤ n && n ≤ 0x200A) || n == 0x2028 || n == 0x2029 || n == 0x202F || n == 0x205F ||
    n == 0x3000

/-- A character list without the blanks at its two ends. -/
def trimChars (cs : List Char) : List Char :=
  ((cs.dropWhile isBlank).reverse.dropWhile isBlank).reverse

/-- A text without the blanks at its two ends. -/
def trim (s : String) : String := String.ofList (trimChars s.toList)

/-- The text up to the first `sep`, and the text after it. -/
def cut? (s : String) (sep : Char) : Option (String × String) :=
  match s.toList.span (· != sep) with
  | (_, []) => none
  | (before, _ :: after) => some (String.ofList before, String.ofList after)

/-- The pieces between the separators `sep`: one more than there are separators. -/
def splitOn (sep : Char) : List Char → List (List Char)
  | [] => [[]]
  | c :: cs =>
    match splitOn sep cs with
    | [] => [[c]]
    | piece :: pieces => if c = sep then [] :: piece :: pieces else (c :: piece) :: pieces

/-! ### Order -/

/-- Puts an item in front of the first one whose name is not smaller. -/
def insertBy {α : Type} (name : α → String) (x : α) : List α → List α
  | [] => [x]
  | y :: ys => if name x ≤ name y then x :: y :: ys else y :: insertBy name x ys

/-- Sorting by name, keeping the order of equal names.  Names are compared by their characters,
which is also the order of their bytes. -/
def sortedBy {α : Type} (name : α → String) : List α → List α
  | [] => []
  | x :: xs => insertBy name x (sortedBy name xs)

/-- Sorted names. -/
def sorted (names : List String) : List String := sortedBy id names

/-- Whether a code point lies in one of the ranges of a table. -/
def inRanges (table : List (Nat × Nat)) (n : Nat) : Bool :=
  table.any fun (lo, hi) => lo ≤ n && n ≤ hi

end TaskLoom.Text
