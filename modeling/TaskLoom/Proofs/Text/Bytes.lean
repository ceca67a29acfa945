import TaskLoom.Text.Basic
import Mathlib.Data.List.Chain
import Mathlib.Data.List.TakeWhile

/-!
# Characters and their bytes

The bytes of a text are those of its characters one after the other (`bytes_ofList`), and a byte
below 128 is a whole character (`encode_of_ascii`).  So what a scanner of bytes looks for, it finds
exactly where the text has that character.  A text without blanks at its ends has none among its
outer bytes either (`ends_of_trim`).
-/

namespace TaskLoom.Text

theorem bytes_ofList (cs : List Char) :
    bytes (String.ofList cs) = cs.flatMap String.utf8EncodeChar := by
  simp [bytes, List.utf8Encode]

theorem bytes_eq_flatMap (s : String) : bytes s = s.toList.flatMap String.utf8EncodeChar := by
  rw [← bytes_ofList, String.ofList_toList]

theorem bytes_inj {s t : String} (h : bytes s = bytes t) : s = t := by
  rw [← ofBytes_bytes s, h, ofBytes_bytes]

theorem encode_ascii {c : Char} (h : c.toNat < 128) :
    String.utf8EncodeChar c = [c.toNat.toUInt8] := by
  unfold String.utf8EncodeChar
  have hv : c.val.toNat ≤ 127 := Nat.le_of_lt_succ h
  simp only [if_pos hv]
  rfl

/-- A byte below 128 is a character of its own. -/
theorem encode_of_ascii {c : Char} {b : UInt8} (hb : b ∈ String.utf8EncodeChar c)
    (hlt : b.toNat < 128) : String.utf8EncodeChar c = [b] ∧ c.toNat = b.toNat := by
  have hbyte (k : Nat) (hk : 128 ≤ k) (hk' : k < 256) (he : b = UInt8.ofNat k) : False := by
    rw [he, UInt8.toNat_ofNat', Nat.mod_eq_of_lt hk'] at hlt
    omega
  have hc : c.val.toNat ≤ 127 := by
    by_contra hbig
    unfold String.utf8EncodeChar at hb
    simp only [if_neg hbig] at hb
    split at hb
    · simp only [List.mem_cons, List.not_mem_nil, or_false] at hb
      rcases hb with hb | hb
      all_goals exact hbyte _ (by omega) (by omega) hb
    · split at hb
      · simp only [List.mem_cons, List.not_mem_nil, or_false] at hb
        rcases hb with hb | hb | hb
        all_goals exact hbyte _ (by omega) (by omega) hb
      · simp only [List.mem_cons, List.not_mem_nil, or_false] at hb
        rcases hb with hb | hb | hb | hb
        all_goals exact hbyte _ (by omega) (by omega) hb
  have hlt' : c.toNat < 128 := Nat.lt_succ_of_le hc
  rw [encode_ascii hlt'] at hb ⊢
  rw [List.mem_singleton] at hb
  refine ⟨by rw [hb], ?_⟩
  rw [hb, UInt8.toNat_ofNat', Nat.mod_eq_of_lt (by omega)]

theorem encode_ne_nil (c : Char) : String.utf8EncodeChar c ≠ [] := by
  unfold String.utf8EncodeChar
  simp only
  split
  · simp
  · split
    · simp
    · split <;> simp

/-- The characters of a text in ASCII, taken from its bytes one by one. -/
def asciiChars (s : String) : List Char := (bytes s).map fun b => Char.ofNat b.toNat

theorem toList_of_ascii {s : String} (h : ∀ b ∈ bytes s, b.toNat < 128) : s.toList = asciiChars s := by
  rw [bytes_eq_flatMap] at h
  rw [asciiChars, bytes_eq_flatMap]
  generalize s.toList = cs at h ⊢
  induction cs with
  | nil => rfl
  | cons c cs ih =>
    rw [List.flatMap_cons] at h ⊢
    obtain ⟨hc, hcs⟩ := List.forall_mem_append.1 h
    obtain ⟨b, hb⟩ := List.exists_mem_of_ne_nil _ (encode_ne_nil c)
    obtain ⟨hone, hcode⟩ := encode_of_ascii hb (hc b hb)
    rw [hone, List.map_append, ← ih hcs, List.map_singleton, ← hcode, Char.ofNat_toNat,
      List.singleton_append]

/-- The first byte of a text, if it is below 128, is its first character. -/
theorem head_char {s : String} {b : UInt8} (h : b ∈ (bytes s).head?) (hlt : b.toNat < 128) :
    ∃ c, s.toList.head? = some c ∧ c.toNat = b.toNat := by
  rw [bytes_eq_flatMap] at h
  cases hs : s.toList with
  | nil => simp [hs] at h
  | cons c cs =>
    refine ⟨c, rfl, ?_⟩
    rw [hs, List.flatMap_cons, List.head?_append_of_ne_nil _ (encode_ne_nil c)] at h
    exact (encode_of_ascii (List.mem_of_head? h) hlt).2

/-- The last byte of a text, if it is below 128, is its last character. -/
theorem last_char {s : String} {b : UInt8} (h : b ∈ (bytes s).getLast?) (hlt : b.toNat < 128) :
    ∃ c, s.toList.getLast? = some c ∧ c.toNat = b.toNat := by
  rw [bytes_eq_flatMap] at h
  rcases List.eq_nil_or_concat s.toList with hs | ⟨cs, c, hs⟩
  · simp [hs] at h
  · refine ⟨c, by simp [hs], ?_⟩
    rw [hs, List.concat_eq_append, List.flatMap_append, List.flatMap_singleton,
      List.getLast?_append_of_ne_nil _ (encode_ne_nil c)] at h
    exact (encode_of_ascii (List.mem_of_mem_getLast? h) hlt).2

/-- Whatever a byte list encodes, its first byte, if it is below 128, is the first character. -/
theorem head_ofBytes {b : UInt8} (hlt : b.toNat < 128) (l : List UInt8) :
    ∃ c, (ofBytes (b :: l)).toList.head? = some c ∧ c.toNat = b.toNat := by
  unfold ofBytes String.fromUTF8?
  split
  · rename_i hvalid
    have hbytes : bytes (String.fromUTF8 ⟨(b :: l).toArray⟩ hvalid) = b :: l := by
      simp [bytes, String.fromUTF8]
    exact head_char (by rw [Option.getD_some, hbytes]; rfl) hlt
  · have hsmall : b < 128 := UInt8.lt_iff_toNat_lt.2 hlt
    have hcode : ∀ n < 128, (Char.ofNat n).toNat = n := by decide
    exact ⟨Char.ofNat b.toNat, by simp [lossy, hsmall], hcode _ hlt⟩

def isAscii (s : String) : Bool := s.toList.all fun c => decide (c.toNat < 128)

/-- Bytes that read as an ASCII text are the bytes of that text. -/
theorem bytes_of_ofBytes {l : List UInt8} {s : String} (h : ofBytes l = s)
    (hs : isAscii s = true) : l = bytes s := by
  have hs : ∀ c ∈ s.toList, c.toNat < 128 := fun c hc =>
    of_decide_eq_true (List.all_eq_true.1 hs c hc)
  unfold ofBytes String.fromUTF8? at h
  split at h
  · rename_i hvalid
    rw [← h, Option.getD_some]
    simp [bytes, String.fromUTF8]
  · subst h
    rw [Option.getD_none] at hs ⊢
    rw [lossy, bytes_ofList, List.flatMap_map]
    rw [lossy, String.toList_ofList] at hs
    have hcode : ∀ n < 128, (Char.ofNat n).toNat = n := by decide
    have hbyte (b : UInt8) (hb : b ∈ l) :
        String.utf8EncodeChar (if b < 128 then Char.ofNat b.toNat else '\uFFFD') = [b] := by
      have hsmall := hs _ (List.mem_map_of_mem hb)
      by_cases hlt : b < 128
      · rw [if_pos hlt] at hsmall ⊢
        rw [encode_ascii hsmall, hcode _ (UInt8.lt_iff_toNat_lt.1 hlt)]
        simp
      · rw [if_neg hlt] at hsmall
        exact absurd hsmall (by decide)
    rw [List.flatMap_congr hbyte]
    simp

/-- A byte below 128 stands between whole characters. -/
theorem exists_chars {cs : List Char} {p q : List UInt8} {b : UInt8} (hb : b.toNat < 128)
    (h : cs.flatMap String.utf8EncodeChar = p ++ b :: q) :
    ∃ ds c es, cs = ds ++ c :: es ∧ ds.flatMap String.utf8EncodeChar = p ∧
      String.utf8EncodeChar c = [b] ∧ es.flatMap String.utf8EncodeChar = q := by
  induction cs generalizing p with
  | nil => simp at h
  | cons c cs ih =>
    rw [List.flatMap_cons] at h
    rcases List.append_eq_append_iff.1 h with ⟨r, rfl, hr⟩ | ⟨r, hr, hq⟩
    · obtain ⟨ds, d, es, rfl, rfl, hd, hes⟩ := ih hr
      exact ⟨c :: ds, d, es, rfl, List.flatMap_cons, hd, hes⟩
    · cases r with
      | nil =>
        obtain ⟨ds, d, es, rfl, hds, hd, hes⟩ := ih (p := []) hq.symm
        refine ⟨c :: ds, d, es, rfl, ?_, hd, hes⟩
        rw [List.flatMap_cons, hds, hr, List.append_nil, List.append_nil]
      | cons b' r =>
        obtain ⟨rfl, hq⟩ := List.cons.inj hq
        have henc := (encode_of_ascii (c := c) (by rw [hr]; simp) hb).1
        rw [henc] at hr
        have hp : p = [] ∧ r = [] := by
          cases p with
          | nil => exact ⟨rfl, by simpa using hr.symm⟩
          | cons x p => simp at hr
        obtain ⟨rfl, rfl⟩ := hp
        exact ⟨[], c, cs, rfl, rfl, henc, (List.cons.inj hq).2.symm⟩

/-- A piece of a text that begins and ends with a byte below 128 is a text. -/
theorem exists_piece {s : String} {p l q : List UInt8} {a b : UInt8} (ha : a.toNat < 128)
    (hb : b.toNat < 128) (h : bytes s = p ++ (a :: (l ++ [b]) ++ q)) :
    ∃ t, bytes t = a :: (l ++ [b]) := by
  rw [bytes_eq_flatMap, List.cons_append] at h
  obtain ⟨ds, c, es, -, -, hc, hes⟩ := exists_chars ha h
  rw [List.append_assoc] at hes
  obtain ⟨es, d, fs, -, hes, hd, -⟩ := exists_chars hb hes
  refine ⟨String.ofList (c :: (es ++ [d])), ?_⟩
  rw [bytes_ofList, List.flatMap_cons, List.flatMap_append, List.flatMap_singleton, hc, hes, hd]
  rfl

theorem trim_of_ends {s : String} (hfirst : ∀ c ∈ s.toList.head?, isBlank c = false)
    (hlast : ∀ c ∈ s.toList.getLast?, isBlank c = false) : trim s = s := by
  have hdrop (cs : List Char) (h : ∀ c ∈ cs.head?, isBlank c = false) :
      cs.dropWhile isBlank = cs := by
    cases cs with
    | nil => rfl
    | cons c cs => rw [List.dropWhile_cons_of_neg (by simp [h c rfl])]
  have htrim : trimChars s.toList = s.toList := by
    rw [trimChars, hdrop _ hfirst, hdrop _ (by rwa [List.head?_reverse]), List.reverse_reverse]
  rw [trim, htrim, String.ofList_toList]

/-- A text is what is left of it between two runs of blanks. -/
theorem exists_trim (s : String) : ∃ as bs : List Char, s.toList = as ++ ((trim s).toList ++ bs) ∧
    (∀ c ∈ as, isBlank c = true) ∧ (∀ c ∈ bs, isBlank c = true) ∧ trim (trim s) = trim s := by
  have htrim : (trim s).toList = ((s.toList.dropWhile isBlank).reverse.dropWhile isBlank).reverse :=
    String.toList_ofList
  have hhead (cs : List Char) : ∀ c ∈ (cs.dropWhile isBlank).head?, isBlank c = false := by
    intro c hc
    have hnot := List.head?_dropWhile_not isBlank cs
    rw [Option.mem_def.1 hc] at hnot
    exact hnot
  have hstart := hhead s.toList
  have hsplit : s.toList.takeWhile isBlank ++ s.toList.dropWhile isBlank = s.toList :=
    List.takeWhile_append_dropWhile
  generalize s.toList.dropWhile isBlank = ds at htrim hstart hsplit
  have hend : ds = (ds.reverse.dropWhile isBlank).reverse ++
      (ds.reverse.takeWhile isBlank).reverse := by
    rw [← List.reverse_append, List.takeWhile_append_dropWhile, List.reverse_reverse]
  refine ⟨s.toList.takeWhile isBlank, (ds.reverse.takeWhile isBlank).reverse, ?_, ?_, ?_, ?_⟩
  · rw [htrim, ← hend, hsplit]
  · exact fun c hc => List.mem_takeWhile_imp hc
  · exact fun c hc => List.mem_takeWhile_imp (List.mem_reverse.1 hc)
  · refine trim_of_ends (fun c hc => hstart c ?_) fun c hc => hhead ds.reverse c ?_
    · rw [hend, ← htrim]
      exact List.mem_head?_append_of_mem_head? hc
    · rwa [htrim, List.getLast?_reverse] at hc

/-- Blanks around some characters do not count. -/
theorem trim_blanks {as cs bs : List Char} (has : ∀ c ∈ as, isBlank c = true)
    (hbs : ∀ c ∈ bs, isBlank c = true) :
    trim (String.ofList (as ++ (cs ++ bs))) = trim (String.ofList cs) := by
  rw [trim, trim, String.toList_ofList, String.toList_ofList, trimChars, trimChars,
    List.dropWhile_append_of_pos has, List.dropWhile_append]
  split
  · rename_i hempty
    have hcs : cs.dropWhile isBlank = [] := by simpa using hempty
    have hnone : bs.dropWhile isBlank = [] := by simpa using hbs
    rw [hcs, hnone]
  · rw [List.reverse_append,
      List.dropWhile_append_of_pos fun c hc => hbs c (List.mem_reverse.1 hc)]

theorem ends_of_trim {s : String} (h : trim s = s) :
    (∀ c ∈ s.toList.head?, isBlank c = false) ∧ ∀ c ∈ s.toList.getLast?, isBlank c = false := by
  have hs : trimChars s.toList = s.toList := by
    rw [← String.toList_ofList (l := trimChars s.toList)]
    exact congrArg String.toList h
  generalize s.toList = cs at hs
  have hkept (ds : List Char) (hd : (ds.dropWhile isBlank).length = ds.length) :
      ∀ c ∈ ds.head?, isBlank c = false := by
    intro c hc
    cases ds with
    | nil => cases hc
    | cons d ds =>
      cases hc
      by_contra hblank
      rw [List.dropWhile_cons_of_pos (by simpa using hblank), List.length_cons] at hd
      have hle := (List.dropWhile_suffix (l := ds) isBlank).length_le
      omega
  -- nothing was dropped at either end
  have hlen : (((cs.dropWhile isBlank).reverse).dropWhile isBlank).length = cs.length := by
    rw [← List.length_reverse]
    exact congrArg List.length hs
  have hle := (List.dropWhile_suffix (l := cs) isBlank).length_le
  have hle' := (List.dropWhile_suffix (l := (cs.dropWhile isBlank).reverse) isBlank).length_le
  rw [List.length_reverse] at hle'
  have hfirst : cs.dropWhile isBlank = cs :=
    (List.dropWhile_suffix isBlank).eq_of_length (by omega)
  refine ⟨hkept cs (by rw [hfirst]), ?_⟩
  rw [← List.head?_reverse]
  rw [hfirst] at hlen
  exact hkept cs.reverse (by rw [hlen, List.length_reverse])

end TaskLoom.Text
