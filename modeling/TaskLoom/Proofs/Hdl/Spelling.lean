import TaskLoom.Proofs.Hdl.Stable

/-!
# Sources that spell out some words

A source has many ways to write down the same words.  `Laid ws l` says that the text `l` consists of
the words `ws` in their order, with blanks between them; a word is any text without blanks at its
ends, such as a name, a mark, a bound or a value.  `Decorated start s l e` says that the source `s`
is the text `l`, with comments and attributes in the place of blanks.  A source `Spells` words if it
is such a text, decorated.

Main statement: behind a source that spells out some words, everything is scanned as before, and the
source is cut into the tokens of these words (`Spells.tokens`, with `Spelled`).  For a given source
it can be checked that it spells out some words (`isLaid`, `Spells.of_ordinary`,
`Spells.of_filler`).  The readers of a type and its range read them off the tokens
(`typeAndRange_spelled`).
-/

namespace TaskLoom.Source

open Text (bytes)

/-- What may stand between the tokens of a source besides blanks: a comment up to the end of its
line, a comment between two marks, or an attribute. -/
inductive Filler where
  | line (text : List UInt8)
  | block (text : List UInt8)
  | attr (text : List UInt8)

namespace Filler

def bytes : Filler → List UInt8
  | .line text => ascii '/' :: ascii '/' :: (text ++ [newline])
  | .block text => ascii '/' :: ascii '*' :: (text ++ [ascii '*', ascii '/'])
  | .attr text => ascii '(' :: ascii '*' :: (text ++ [ascii '*', ascii ')'])

/-- The filler ends where its text ends.  An attribute does not begin like the wildcard of a
sensitivity list. -/
def IsProper : Filler → Prop
  | .line text => newline ∉ text
  | .block text => text.IsChain fun a b => ¬ (a = ascii '*' ∧ b = ascii '/')
  | .attr text =>
    (text.IsChain fun a b => ¬ (a = ascii '*' ∧ b = ascii ')')) ∧ isWildcard text = false

instance : (f : Filler) → Decidable f.IsProper
  | .line text => inferInstanceAs (Decidable (newline ∉ text))
  | .block text => inferInstanceAs (Decidable (text.IsChain _))
  | .attr text => inferInstanceAs (Decidable (text.IsChain _ ∧ isWildcard text = false))

/-- Whether nothing but blanks stands on the line before what follows the filler. -/
def flag (start : Bool) : Filler → Bool
  | .line _ => true
  | _ => start

theorem scanned {f : Filler} (hf : f.IsProper) (q : List UInt8) (start : Bool) :
    Scanned q start f.bytes (f.bytes.map blanked) (f.flag start) := by
  cases f with
  | line text =>
    have herase : treatment start (ascii '/') ((ascii '/' :: text) ++ ([newline] ++ q)) =
        .erase (ascii '/' :: text).length := treatment_line hf start q
    have hplain : treatment start newline q = .plain :=
      treatment_plain (by decide) (by decide) fun y _ =>
        ⟨fun hy => absurd hy.1 (by decide), fun hy => absurd hy.1 (by decide)⟩
    have hbytes : (Filler.bytes (.line text)).map blanked =
        (ascii '/' :: ascii '/' :: text).map blanked ++ [newline] := by
      simp only [bytes, List.map_cons, List.map_append]
      rfl
    rw [hbytes]
    exact .erased herase (.plain hplain (.nil true))
  | block text =>
    have herase : treatment start (ascii '/') ((ascii '*' :: (text ++ [ascii '*', ascii '/'])) ++
        ([] ++ q)) = .erase (ascii '*' :: (text ++ [ascii '*', ascii '/'])).length := by
      simpa using treatment_block hf start q
    have hscanned := Scanned.erased herase (.nil start)
    rwa [List.append_nil, List.append_nil] at hscanned
  | attr text =>
    have herase : treatment start (ascii '(') ((ascii '*' :: (text ++ [ascii '*', ascii ')'])) ++
        ([] ++ q)) = .erase (ascii '*' :: (text ++ [ascii '*', ascii ')'])).length := by
      simpa using treatment_attribute hf.1 hf.2 start q
    have hscanned := Scanned.erased herase (.nil start)
    rwa [List.append_nil, List.append_nil] at hscanned

/-- A filler leaves a blank or the end of a line where it ends. -/
theorem exists_last (f : Filler) : ∃ b, (f.bytes.map blanked).getLast? = some b ∧
    isSpace b = true := by
  have hlast (l : List UInt8) (x : UInt8) : ∃ b, ((l ++ [x]).map blanked).getLast? = some b ∧
      isSpace b = true := by
    refine ⟨blanked x, by simp, ?_⟩
    unfold blanked
    split
    · rename_i hx
      rw [eq_of_beq hx]
      decide
    · decide
  cases f with
  | line text => exact hlast (ascii '/' :: ascii '/' :: text) newline
  | block text =>
    have hsplit : Filler.bytes (.block text) =
        (ascii '/' :: ascii '*' :: (text ++ [ascii '*'])) ++ [ascii '/'] := by simp [bytes]
    exact hsplit ▸ hlast _ _
  | attr text =>
    have hsplit : Filler.bytes (.attr text) =
        (ascii '(' :: ascii '*' :: (text ++ [ascii '*'])) ++ [ascii ')'] := by simp [bytes]
    exact hsplit ▸ hlast _ _

end Filler

/-- The source `s` is the text `l` with fillers in the place of blanks.  The flags say whether there
are only blanks on the line before the text and behind it: a backtick that comes first on its line
begins a directive. -/
inductive Decorated : Bool → List UInt8 → List UInt8 → Bool → Prop where
  | nil (start : Bool) : Decorated start [] [] start
  | byte {start e : Bool} {b : UInt8} {s l : List UInt8} (hquote : b ≠ ascii '"')
      (htick : b = backtick → start = false) (hmark : ∀ y ∈ s.head?, NoMark b y)
      (h : Decorated (b == newline || (isSpace b && start)) s l e) :
      Decorated start (b :: s) (b :: l) e
  | quoted {start e : Bool} {t s l : List UInt8} (ht : Quotable t) (h : Decorated false s l e) :
      Decorated start (ascii '"' :: (t ++ ascii '"' :: s)) (ascii '"' :: (t ++ ascii '"' :: l)) e
  | filler {start e : Bool} {s l : List UInt8} (f : Filler) (hf : f.IsProper)
      (h : Decorated (f.flag start) s l e) :
      Decorated start (f.bytes ++ s) (f.bytes.map blanked ++ l) e

namespace Decorated

variable {start e : Bool} {s l q : List UInt8}

theorem getLast?_quoted (t r : List UInt8) : (ascii '"' :: (t ++ ascii '"' :: r)).getLast? =
    ((ascii '"' :: (t ++ [ascii '"'])) ++ r).getLast? := by
  simp

theorem length_eq (h : Decorated start s l e) : l.length = s.length := by
  induction h with
  | nil start => rfl
  | byte _ _ _ _ ih => rw [List.length_cons, List.length_cons, ih]
  | quoted _ _ ih => simp [ih]
  | filler f _ _ ih => simp [ih]

/-- Blanking out takes the fillers away again, if no mark begins at the end of the source. -/
theorem scanned (h : Decorated start s l e)
    (hq : ∀ b ∈ s.getLast?, ∀ y ∈ q.head?, NoMark b y) : Scanned q start s l e := by
  induction h with
  | nil start => exact .nil start
  | @byte start e b s l hquote htick hmark h ih =>
    have hnext : ∀ y ∈ (s ++ q).head?, NoMark b y := by
      cases s with
      | nil => exact hq b rfl
      | cons c s => exact hmark
    have hplain : treatment start b (s ++ q) = .plain := by
      refine treatment_plain_iff.2 ⟨hquote, fun hb => ?_, fun hb hhead => ?_, htick⟩
      · exact ⟨fun hy => (hnext _ hy).1 ⟨hb, .inl rfl⟩, fun hy => (hnext _ hy).1 ⟨hb, .inr rfl⟩⟩
      · exact absurd ⟨hb, rfl⟩ (hnext _ hhead).2
    refine .plain hplain (ih fun x hx => hq x ?_)
    rw [List.getLast?_cons, Option.mem_def.1 hx]
    rfl
  | @quoted start e t s l ht h ih =>
    refine .quoted ht (ih fun x hx => hq x ?_)
    exact (getLast?_quoted t s).symm ▸ List.mem_getLast?_append_of_mem_getLast? hx
  | @filler start e s l f hf h ih =>
    refine (f.scanned hf (s ++ q) start).append (ih fun x hx => hq x ?_)
    exact List.mem_getLast?_append_of_mem_getLast? hx

/-- Behind a text that does not end in a blank the line does not begin anew. -/
theorem flag_cases (h : Decorated start s l e) (he : e = true) :
    l = [] ∧ start = true ∨ ∃ b, l.getLast? = some b ∧ isSpace b = true := by
  induction h with
  | nil start => exact .inl ⟨rfl, he⟩
  | @byte start e b s l _ _ _ _ ih =>
    refine .inr ?_
    rcases ih he with ⟨rfl, hflag⟩ | ⟨x, hx, hspace⟩
    · refine ⟨b, rfl, ?_⟩
      rw [Bool.or_eq_true, Bool.and_eq_true] at hflag
      rcases hflag with hline | hblank
      · rw [eq_of_beq hline]
        decide
      · exact hblank.1
    · exact ⟨x, by rw [List.getLast?_cons, hx]; rfl, hspace⟩
  | @quoted start e t s l _ _ ih =>
    rcases ih he with ⟨-, hflag⟩ | ⟨x, hx, hspace⟩
    · cases hflag
    · refine .inr ⟨x, ?_, hspace⟩
      exact (getLast?_quoted t l).symm ▸ List.mem_getLast?_append_of_mem_getLast? hx
  | @filler start e s l f _ _ ih =>
    refine .inr ?_
    rcases ih he with ⟨rfl, -⟩ | ⟨x, hx, hspace⟩
    · rw [List.append_nil]
      exact f.exists_last
    · exact ⟨x, List.mem_getLast?_append_of_mem_getLast? hx, hspace⟩

theorem getLast?_source (h : Decorated start s l e) {b : UInt8} (hb : l.getLast? = some b)
    (hspace : isSpace b = false) : s.getLast? = some b := by
  have hnil {start e : Bool} {s : List UInt8} (h : Decorated start s [] e) : s = [] :=
    List.eq_nil_of_length_eq_zero h.length_eq.symm
  induction h with
  | nil start => exact hb
  | @byte start e c s l _ _ _ h ih =>
    cases l with
    | nil => rwa [hnil h]
    | cons x l =>
      rw [List.getLast?_cons, ih hb]
      rfl
  | @quoted start e t s l _ h ih =>
    rw [getLast?_quoted] at hb ⊢
    cases l with
    | nil => rwa [hnil h]
    | cons x l =>
      rw [List.getLast?_append_of_ne_nil _ (List.cons_ne_nil x l)] at hb
      exact List.mem_getLast?_append_of_mem_getLast? (ih hb)
  | @filler start e s l f _ h ih =>
    cases l with
    | nil =>
      obtain ⟨x, hx, hblank⟩ := f.exists_last
      rw [List.append_nil, hx] at hb
      rw [Option.some.inj hb, hspace] at hblank
      cases hblank
    | cons x l =>
      rw [List.getLast?_append_of_ne_nil _ (List.cons_ne_nil x l)] at hb
      exact List.mem_getLast?_append_of_mem_getLast? (ih hb)

end Decorated

/-! ### Words with blanks between them -/

/-- The tokens of the word `w` end where it ends, in front of the text `l`: a mark always does;
another word does so before a blank, and before whatever cannot continue a word if it does not end
in an escaped identifier.  Its strings must be closed. -/
def Apart (w : String) (l : List UInt8) : Prop :=
  isMarkText w = true ∨ (tokens (bytes w)).all Token.isTidy = true ∧
    ∀ y ∈ l.head?, isSpace y = true ∨ (continuesWord y = false ∧ endsEscaped w = false)

/-- The text `l` consists of the words `ws`, with blanks before and between them.  The last word is
a mark that closes a construct. -/
inductive Laid : List String → List UInt8 → Prop where
  | last {w : String} (hw : w = ")" ∨ w = ";") : Laid [w] (bytes w)
  | blank {b : UInt8} {ws : List String} {l : List UInt8} (hb : isSpace b = true) (h : Laid ws l) :
      Laid ws (b :: l)
  | word {w : String} {ws : List String} {l : List UInt8} (htrim : Text.trim w = w)
      (hapart : Apart w l) (h : Laid ws l) : Laid (w :: ws) (bytes w ++ l)

/-- The tokens `ts` are those of the words `ws`, and in the source each word is the text that its
tokens span. -/
inductive Spelled (clean : List UInt8) : List String → List Token → Prop where
  | nil : Spelled clean [] []
  | cons {w : String} {ws : List String} {us ts : List Token}
      (hbytes : us.map Token.bytes = (tokens (bytes w)).map Token.bytes)
      (hspan : spanText clean us = w) (h : Spelled clean ws ts) : Spelled clean (w :: ws) (us ++ ts)

section
variable {ws : List String} {l c clean : List UInt8} {w : String} {off : Nat}

theorem Laid.exists_last (h : Laid ws l) : ∃ b, l.getLast? = some b ∧
    (b = ascii ')' ∨ b = ascii ';') := by
  induction h with
  | last hw =>
    rcases hw with rfl | rfl
    · exact ⟨_, rfl, .inl rfl⟩
    · exact ⟨_, rfl, .inr rfl⟩
  | @blank b ws l _ _ ih =>
    obtain ⟨x, hx, hcases⟩ := ih
    exact ⟨x, by rw [List.getLast?_cons, hx]; rfl, hcases⟩
  | word _ _ _ ih =>
    obtain ⟨x, hx, hcases⟩ := ih
    exact ⟨x, List.mem_getLast?_append_of_mem_getLast? hx, hcases⟩

theorem Laid.ne_nil (h : Laid ws l) : l ≠ [] := by
  rintro rfl
  obtain ⟨b, hb, -⟩ := h.exists_last
  cases hb

theorem bytes_isMarkText (h : isMarkText w = true) : ∃ b, bytes w = [b] ∧ isSpace b = false ∧
    b ≠ ascii '"' ∧ b ≠ ascii '\\' ∧ startsWord b = false := by
  unfold isMarkText at h
  split at h
  · rename_i b hb
    simp only [Bool.and_eq_true, Bool.not_eq_true', bne_iff_ne] at h
    exact ⟨b, hb, h.1.1.1, h.1.1.2, h.1.2, h.2⟩
  · cases h

theorem tokensFrom_isMarkText (h : isMarkText w = true) (off : Nat) (c : List UInt8) :
    tokensFrom off 0 (bytes w ++ c) =
      tokensFrom off 0 (bytes w) ++ tokensFrom (off + (bytes w).length) 0 c := by
  obtain ⟨b, hb, hspace, hquote, hslash, hword⟩ := bytes_isMarkText h
  rw [hb, List.singleton_append, tokensFrom_mark hspace hquote hslash hword,
    tokensFrom_mark hspace hquote hslash hword]
  rfl

/-- A word is cut off from what stands behind it. -/
theorem Apart.tokensFrom (h : Apart w l) (hl : l ≠ []) (off : Nat) (c : List UInt8) :
    tokensFrom off 0 (bytes w ++ (l ++ c)) =
      tokensFrom off 0 (bytes w) ++ tokensFrom (off + (bytes w).length) 0 (l ++ c) := by
  rcases h with hmark | ⟨htidy, hnext⟩
  · exact tokensFrom_isMarkText hmark off (l ++ c)
  · exact tokensFrom_ended htidy (List.head?_append_of_ne_nil l hl ▸ hnext) off

/-- The tokens of a text that consists of some words. -/
theorem Laid.spelled (h : Laid ws l) (hat : clean.drop off = l ++ c) :
    ∃ ts, tokensFrom off 0 (l ++ c) = ts ++ tokensFrom (off + l.length) 0 c ∧
      Spelled clean ws ts := by
  have hword {w : String} {r : List UInt8} {off : Nat} (htrim : Text.trim w = w)
      (hat : clean.drop off = bytes w ++ r) {ws : List String} {ts : List Token}
      (hts : Spelled clean ws ts) : Spelled clean (w :: ws) (tokensFrom off 0 (bytes w) ++ ts) :=
    .cons (bytes_tokensFrom off 0 0 (bytes w)) (spanText_tokens hat htrim) hts
  induction h generalizing off with
  | @last w hw =>
    have hmark : isMarkText w = true ∧ Text.trim w = w := by
      rcases hw with rfl | rfl <;> decide
    refine ⟨_, tokensFrom_isMarkText hmark.1 off c, ?_⟩
    have hspelled := hword hmark.2 hat .nil
    rwa [List.append_nil] at hspelled
  | @blank b ws l hb h ih =>
    have hat' : clean.drop (off + 1) = l ++ c := by
      rw [← List.drop_drop, hat]
      rfl
    obtain ⟨ts, hts, hspelled⟩ := ih hat'
    refine ⟨ts, ?_, hspelled⟩
    rw [List.cons_append, tokensFrom_space hb, hts, List.length_cons]
    congr 2
    omega
  | @word w ws l htrim hapart h ih =>
    rw [List.append_assoc] at hat
    have hat' : clean.drop (off + (bytes w).length) = l ++ c := by
      rw [← List.drop_drop, hat, List.drop_left]
    obtain ⟨ts, hts, hspelled⟩ := ih hat'
    refine ⟨tokensFrom off 0 (bytes w) ++ ts, ?_, hword htrim hat hspelled⟩
    rw [List.append_assoc, hapart.tokensFrom h.ne_nil, hts, List.append_assoc, List.length_append,
      Nat.add_assoc]

end

/-- The source consists of the words, with blanks, comments and attributes before and between
them. -/
def Spells (ws : List String) (s : List UInt8) : Prop :=
  ∃ l e, Laid ws l ∧ Decorated true s l e

/-- Behind a source that spells out some words everything is scanned as in the middle of a line, and
the source is cut into the tokens of the words. -/
theorem Spells.tokens {ws : List String} {s : List UInt8} (h : Spells ws s) (q : List UInt8) :
    ∃ l ts, l.length = s.length ∧ strip (s ++ q) = l ++ stripFrom 0 0 false q ∧
      tokens (strip (s ++ q)) = ts ++ tokensFrom l.length 0 (stripFrom 0 0 false q) ∧
      Spelled (l ++ stripFrom 0 0 false q) ws ts := by
  obtain ⟨l, e, hlaid, hdecorated⟩ := h
  obtain ⟨b, hb, hclosing⟩ := hlaid.exists_last
  have hspace : isSpace b = false := by
    rcases hclosing with rfl | rfl <;> decide
  have he : e = false := by
    rw [← Bool.not_eq_true]
    intro he
    rcases hdecorated.flag_cases he with ⟨rfl, -⟩ | ⟨x, hx, hblank⟩
    · cases hb
    · rw [Option.some.inj (hb.symm.trans hx), hblank] at hspace
      cases hspace
  subst he
  have hlast : ∀ x ∈ s.getLast?, ∀ y ∈ q.head?, NoMark x y := by
    intro x hx y _
    rw [Option.some.inj ((Option.mem_def.1 hx).symm.trans (hdecorated.getLast?_source hb hspace))]
    refine ⟨fun hmark => ?_, fun hmark => ?_⟩ <;>
      rcases hclosing with rfl | rfl <;> exact absurd hmark.1 (by decide)
  have hstrip : strip (s ++ q) = l ++ stripFrom 0 0 false q := (hdecorated.scanned hlast).strip
  have hat : (l ++ stripFrom 0 0 false q).drop 0 = l ++ stripFrom 0 0 false q := rfl
  obtain ⟨ts, hts, hspelled⟩ := hlaid.spelled hat
  refine ⟨l, ts, hdecorated.length_eq, hstrip, ?_, hspelled⟩
  rw [hstrip, Source.tokens, hts, Nat.zero_add]

instance (w : String) (l : List UInt8) : Decidable (Apart w l) :=
  inferInstanceAs (Decidable (_ ∨ _ ∧ ∀ y ∈ l.head?, _))

/-- Whether a text consists of some words, with blanks between them. -/
def isLaid : List String → List UInt8 → Bool
  | [], _ => false
  | [w], l => (w == ")" || w == ";") && l.dropWhile isSpace == bytes w
  | w :: v :: ws, l =>
    let rest := (l.dropWhile isSpace).drop (bytes w).length
    (bytes w).isPrefixOf (l.dropWhile isSpace) && Text.trim w == w && decide (Apart w rest) &&
      isLaid (v :: ws) rest

section
variable {ws : List String} {s l r : List UInt8}

theorem Laid.blanks {bs : List UInt8} (hbs : ∀ b ∈ bs, isSpace b = true) (h : Laid ws l) :
    Laid ws (bs ++ l) := by
  induction bs with
  | nil => exact h
  | cons b bs ih =>
    exact .blank (hbs b List.mem_cons_self) (ih fun x hx => hbs x (List.mem_cons_of_mem _ hx))

theorem Laid.of_isLaid (h : isLaid ws l = true) : Laid ws l := by
  have hblanks (l : List UInt8) : ∀ b ∈ l.takeWhile isSpace, isSpace b = true := fun _ =>
    List.mem_takeWhile_imp
  induction ws, l using isLaid.induct with
  | case1 l => cases h
  | case2 w l =>
    rw [isLaid, Bool.and_eq_true, Bool.or_eq_true, beq_iff_eq, beq_iff_eq, beq_iff_eq] at h
    rw [← List.takeWhile_append_dropWhile (p := isSpace) (l := l), h.2]
    exact .blanks (hblanks l) (.last h.1)
  | case3 w v ws l rest ih =>
    simp only [isLaid, Bool.and_eq_true, beq_iff_eq, decide_eq_true_eq,
      List.isPrefixOf_iff_prefix] at h
    obtain ⟨⟨⟨⟨k, hk⟩, htrim⟩, hapart⟩, hrest⟩ := h
    have hbehind : rest = k := by
      simp only [rest, ← hk, List.drop_left]
    rw [← List.takeWhile_append_dropWhile (p := isSpace) (l := l), ← hk]
    exact .blanks (hblanks l) (.word htrim (hbehind ▸ hapart) (hbehind ▸ ih hrest))

/-- Ordinary text stays as it is. -/
theorem Decorated.ordinary (hs : s.all isOrdinary = true) (hr : r.head? ≠ some (ascii '*'))
    (h : ∀ start, ∃ e, Decorated start r l e) (start : Bool) :
    ∃ e, Decorated start (s ++ r) (s ++ l) e := by
  induction s generalizing start with
  | nil => exact h start
  | cons b s ih =>
    rw [List.all_cons, Bool.and_eq_true] at hs
    obtain ⟨hb, hs⟩ := hs
    simp only [isOrdinary, Bool.and_eq_true, bne_iff_ne] at hb
    have hnext : ∀ y ∈ (s ++ r).head?, y ≠ ascii '*' := by
      rintro y hy rfl
      cases s with
      | nil => exact hr hy
      | cons c s =>
        obtain rfl := Option.some.inj hy
        simp [isOrdinary] at hs
    obtain ⟨e, he⟩ := ih hs (b == newline || (isSpace b && start))
    exact ⟨e, .byte hb.1.1.1 (fun htick => absurd htick hb.1.1.2)
      (fun y hy => ⟨fun hmark => hb.1.2 hmark.1, fun hmark => hnext y hy hmark.2⟩) he⟩

theorem Decorated.of_ordinary (hs : s.all isOrdinary = true) (start : Bool) :
    ∃ e, Decorated start s s e := by
  have hall := Decorated.ordinary (r := []) (l := []) hs (by simp) (fun e => ⟨e, .nil e⟩) start
  rwa [List.append_nil] at hall

theorem Decorated.filled {f : Filler} (hf : f.IsProper) (h : ∀ start, ∃ e, Decorated start r l e)
    (start : Bool) : ∃ e, Decorated start (f.bytes ++ r) (f.bytes.map blanked ++ l) e := by
  obtain ⟨e, he⟩ := h (f.flag start)
  exact ⟨e, .filler f hf he⟩

/-- A source without comments and attributes. -/
theorem Spells.of_ordinary (h : isLaid ws s = true) (hs : s.all isOrdinary = true) :
    Spells ws s := by
  obtain ⟨e, he⟩ := Decorated.of_ordinary hs true
  exact ⟨s, e, .of_isLaid h, he⟩

/-- A source with one comment or attribute. -/
theorem Spells.of_filler {f : Filler} (hf : f.IsProper) (hs : s.all isOrdinary = true)
    (hr : r.all isOrdinary = true) (h : isLaid ws (s ++ (f.bytes.map blanked ++ r)) = true) :
    Spells ws (s ++ (f.bytes ++ r)) := by
  have hfirst : (f.bytes ++ r).head? ≠ some (ascii '*') := by
    cases f <;> exact fun he => absurd (Option.some.inj he) (by decide)
  obtain ⟨e, he⟩ := Decorated.ordinary hs hfirst (Decorated.filled hf (Decorated.of_ordinary hr))
    true
  exact ⟨_, e, .of_isLaid h, he⟩

end

/-! ### Words that are read -/

/-- A text that stands as one token. -/
def isTokenText (w : String) : Bool := (tokens (bytes w)).map Token.bytes == [bytes w]

theorem isTokenText_name {name : String} (h : isPlainName name = true) :
    isTokenText name = true := by
  obtain ⟨b, l, hs, hb, hl, -⟩ := plainName_bytes h
  have hopen : Opens [] := nofun
  have htoken := tokensFrom_word (startsWord_of_startsName hb).1
    (fun x hx => continuesWord_of_continuesName (hl x hx)) hopen 0
  rw [List.append_nil, tokensFrom] at htoken
  rw [isTokenText, tokens, hs, htoken]
  simp

theorem text_of_bytes {t : Token} {w : String} (h : t.bytes = bytes w) : t.text = w := by
  rw [Token.text, h, Text.ofBytes_bytes]

theorem isName_of_bytes {t : Token} {w : String} (h : t.bytes = bytes w) :
    t.isName = isNameText w := by
  rw [isNameText, Token.isName, Token.isName, Token.text, Token.text, h]

section
variable {clean : List UInt8} {w : String} {ws : List String} {ts : List Token}

/-- A word that is one token. -/
theorem Spelled.token (h : Spelled clean (w :: ws) ts) (hw : isTokenText w = true) :
    ∃ t ts', ts = t :: ts' ∧ t.bytes = bytes w ∧ Spelled clean ws ts' := by
  cases h with
  | @cons _ _ us ts hbytes hspan h =>
    rw [isTokenText, beq_iff_eq] at hw
    rw [hw] at hbytes
    obtain ⟨t, rfl, ht⟩ := List.map_eq_singleton_iff.1 hbytes
    exact ⟨t, ts, rfl, ht, h⟩

/-- A fixed word. -/
theorem Spelled.fixed (h : Spelled clean (w :: ws) ts) (hw : isTokenText w = true) :
    ∃ t ts', ts = t :: ts' ∧ t.text = w ∧ Spelled clean ws ts' := by
  obtain ⟨t, ts', rfl, ht, h⟩ := h.token hw
  exact ⟨t, ts', rfl, text_of_bytes ht, h⟩

/-- A plain name. -/
theorem Spelled.name (h : Spelled clean (w :: ws) ts) (hw : isPlainName w = true) :
    ∃ t ts', ts = t :: ts' ∧ t.text = w ∧ t.isName = true ∧ Spelled clean ws ts' := by
  obtain ⟨t, ts', rfl, ht, h⟩ := h.token (isTokenText_name hw)
  exact ⟨t, ts', rfl, text_of_bytes ht, by rw [isName_of_bytes ht, isNameText_plain hw], h⟩

/-- A bound or a value. -/
theorem Spelled.piece (h : Spelled clean (w :: ws) ts) :
    ∃ us ts', ts = us ++ ts' ∧ us.map Token.text = words w ∧ spanText clean us = w ∧
      Spelled clean ws ts' := by
  cases h with
  | @cons _ _ us ts hbytes hspan h =>
    refine ⟨us, ts, rfl, ?_, hspan, h⟩
    have htexts := congrArg (List.map Text.ofBytes) hbytes
    rwa [List.map_map, List.map_map] at htexts

/-- Words that are spelled one after the other. -/
theorem Spelled.append {ws' : List String} (h : Spelled clean (ws ++ ws') ts) :
    ∃ us us', ts = us ++ us' ∧ Spelled clean ws us ∧ Spelled clean ws' us' := by
  induction ws generalizing ts with
  | nil => exact ⟨[], ts, rfl, .nil, h⟩
  | cons w ws ih =>
    cases h with
    | @cons _ _ vs ts hbytes hspan h =>
      obtain ⟨us, us', rfl, hus, hus'⟩ := ih h
      exact ⟨vs ++ us, us', (List.append_assoc vs us us').symm, .cons hbytes hspan hus, hus'⟩

/-- The words of a range, if there is one. -/
def rangeWords : Option BitRange → List String
  | none => []
  | some r => ["[", r.msb, ":", r.lsb, "]"]

/-- Whether both bounds end where their range ends them. -/
def closedRange (r : BitRange) : Bool :=
  closedBound true 0 (words r.msb) && closedBound false 0 (words r.lsb)

theorem range_spelled {r : Option BitRange} (hr : ∀ b ∈ r, closedRange b = true)
    (hw : isTokenText w = true) (hbracket : w ≠ "[")
    (h : Spelled clean (rangeWords r ++ w :: ws) ts) :
    ∃ ts', Spelled clean (w :: ws) ts' ∧ ts'.length ≤ ts.length ∧
      ∀ rest, range clean (ts ++ rest) = .ok (r, ts' ++ rest) := by
  cases r with
  | none =>
    refine ⟨ts, h, Nat.le_refl _, fun rest => ?_⟩
    obtain ⟨t, ts', rfl, ht, -⟩ := h.fixed hw
    simp [range, ht, hbracket]
  | some r =>
    have hclosed := hr r rfl
    rw [closedRange, Bool.and_eq_true] at hclosed
    obtain ⟨opening, ts₁, rfl, hopening, h₁⟩ := Spelled.fixed h (by decide)
    obtain ⟨us, ts₂, rfl, hus, hmsb, h₂⟩ := h₁.piece
    obtain ⟨colon, ts₃, rfl, hcolon, h₃⟩ := h₂.fixed (by decide)
    obtain ⟨vs, ts₄, rfl, hvs, hlsb, h₄⟩ := h₃.piece
    obtain ⟨closing, ts', rfl, hclosing, h'⟩ := h₄.fixed (by decide)
    refine ⟨ts', h', ?_, fun rest => ?_⟩
    · simp only [List.length_cons, List.length_append]
      omega
    · have hbounds : rangeBounds clean 0 [] none (us ++ colon :: (vs ++ closing :: (ts' ++ rest))) =
          .ok (⟨spanText clean us, spanText clean vs⟩, ts' ++ rest) :=
        rangeBounds_closed (hus ▸ hclosed.1) (hvs ▸ hclosed.2) hcolon hclosing (ts' ++ rest)
      simp only [List.cons_append, List.append_assoc, range, hopening, beq_self_eq_true, if_true,
        hbounds, hmsb, hlsb]
      rfl

/-- Words for a type and a range, in front of a name. -/
theorem typeAndRange_spelled {types : List String} {r : Option BitRange}
    (htypes : ∀ x ∈ types, x ∈ typeWords) (hr : ∀ b ∈ r, closedRange b = true)
    (hw : isPlainName w = true) (h : Spelled clean (types ++ (rangeWords r ++ w :: ws)) ts) :
    ∃ ts', Spelled clean (w :: ws) ts' ∧ ts'.length ≤ ts.length ∧
      ∀ rest, typeAndRange clean (ts ++ rest) = .ok (r, ts' ++ rest) := by
  induction types generalizing ts with
  | nil =>
    have hbracket : w ≠ "[" := by
      rintro rfl
      exact absurd hw (by decide)
    obtain ⟨ts', h', hle, hread⟩ := range_spelled hr (isTokenText_name hw) hbracket h
    refine ⟨ts', h', hle, fun rest => ?_⟩
    -- neither the bracket of a range nor a plain name is a word for a type
    have hstop : ∃ t us, ts = t :: us ∧ t.text ∉ typeWords := by
      cases r with
      | none =>
        obtain ⟨t, us, rfl, ht, -⟩ := Spelled.fixed h (isTokenText_name hw)
        exact ⟨t, us, rfl, ht ▸ not_typeWord hw⟩
      | some r =>
        obtain ⟨t, us, rfl, ht, -⟩ := Spelled.fixed h (by decide)
        exact ⟨t, us, rfl, ht ▸ by decide⟩
    obtain ⟨t, us, rfl, ht⟩ := hstop
    rw [typeAndRange, List.cons_append, List.dropWhile_cons_of_neg (by simpa using ht)]
    exact hread rest
  | cons x types ih =>
    have hx := htypes x List.mem_cons_self
    have htoken : ∀ x ∈ typeWords, isTokenText x = true := by decide
    obtain ⟨t, us, rfl, ht, hus⟩ := Spelled.fixed h (htoken x hx)
    obtain ⟨ts', h', hle, hread⟩ := ih (fun y hy => htypes y (List.mem_cons_of_mem _ hy)) hus
    refine ⟨ts', h', Nat.le_succ_of_le hle, fun rest => ?_⟩
    rw [typeAndRange, List.cons_append, List.dropWhile_cons_of_pos (by simpa [ht] using hx)]
    exact hread rest

end

/-- The words of some items, with a comma between two of them. -/
def commaWords (items : List (List String)) : List String := [","].intercalate items

@[simp] theorem commaWords_nil : commaWords [] = [] := rfl

@[simp] theorem commaWords_singleton (x : List String) : commaWords [x] = x := by
  simp [commaWords, List.intercalate]

@[simp] theorem commaWords_cons_cons (x y : List String) (xs : List (List String)) :
    commaWords (x :: y :: xs) = x ++ "," :: commaWords (y :: xs) := by
  simp [commaWords, List.intercalate]

/-- The first word of some items is that of the first item. -/
theorem commaWords_first (w : String) (x : List String) (xs : List (List String))
    (ws : List String) : ∃ ws', commaWords ((w :: x) :: xs) ++ ws = w :: ws' := by
  cases xs with
  | nil => exact ⟨x ++ ws, by simp⟩
  | cons y ys => exact ⟨x ++ "," :: commaWords (y :: ys) ++ ws, by simp⟩

end TaskLoom.Source
