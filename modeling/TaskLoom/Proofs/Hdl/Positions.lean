import Mathlib.Data.List.Forall2
import TaskLoom.Proofs.Hdl.Cutting

/-!
# Blanking out and cutting keep positions

Blanking out treats each byte in its place (`forall₂_stripFrom`): a byte stays as it is, or it is no
line end and becomes a blank.  Cutting skips blanks only, so the tokens stand one behind the other
and nothing but blanks stands between them (`spans_tokensFrom`, `blank_outside`).

Main statement: an offset or a line in the blanked source is the same offset or line in the source
itself, and the offset of a token is where its bytes are (`positions_kept`).
-/

namespace TaskLoom.Source

/-- A byte is kept, or it is no line end and becomes a blank. -/
def Blanks (b b' : UInt8) : Prop := b' = b ∨ b ≠ newline ∧ b' = 32

theorem blanks_blanked (b : UInt8) : Blanks b (blanked b) := by
  unfold blanked
  split
  · exact .inl rfl
  · rename_i hb
    exact .inr ⟨by simpa using hb, rfl⟩

theorem Blanks.newline_iff {b b' : UInt8} (h : Blanks b b') : b' = newline ↔ b = newline := by
  obtain rfl | ⟨hb, rfl⟩ := h
  · exact Iff.rfl
  · exact iff_of_false (by decide) hb

/-- In every mode of the scanner, byte by byte. -/
theorem forall₂_stripFrom (e c : Nat) (start : Bool) (bs : List UInt8) :
    List.Forall₂ Blanks bs (stripFrom e c start bs) := by
  induction bs generalizing e c start with
  | nil =>
    rw [stripFrom]
    exact .nil
  | cons b bs ih =>
    cases e with
    | succ e => exact .cons (blanks_blanked b) (ih e c start)
    | zero =>
      cases c with
      | succ c => exact .cons (.inl rfl) (ih 0 c _)
      | zero =>
        rw [stripFrom]
        cases treatment start b bs with
        | erase n => exact .cons (blanks_blanked b) (ih n 0 start)
        | copy n => exact .cons (.inl rfl) (ih 0 n false)
        | plain => exact .cons (.inl rfl) (ih 0 0 _)

theorem forall₂_strip (src : List UInt8) : List.Forall₂ Blanks src (strip src) :=
  forall₂_stripFrom 0 0 true src

theorem count_newline_of_blanks {bs bs' : List UInt8} (h : List.Forall₂ Blanks bs bs') :
    bs'.count newline = bs.count newline := by
  induction h with
  | nil => rfl
  | @cons b b' _ _ hb _ ih =>
    rw [List.count_cons, List.count_cons, ih]
    simp only [beq_iff_eq, hb.newline_iff]

/-- The offset behind the last byte of a token. -/
def Token.stop (t : Token) : Nat := t.offset + t.bytes.length

/-- Tokens with bytes of their own, one behind the other, that stand at their offsets in the part
`l` of a source that begins at `off`. -/
structure Spans (off : Nat) (l : List UInt8) (ts : List Token) : Prop where
  apart : ts.Pairwise fun t u => t.stop ≤ u.offset
  nonempty : ∀ t ∈ ts, t.bytes ≠ []
  within : ∀ t ∈ ts, off ≤ t.offset ∧ t.stop ≤ off + l.length
  text : ∀ t ∈ ts, t.bytes = (l.drop (t.offset - off)).take t.bytes.length

variable {off : Nat} {b : UInt8} {l : List UInt8} {ts : List Token}

theorem Spans.behind (h : Spans (off + 1) l ts) : Spans off (b :: l) ts where
  apart := h.apart
  nonempty := h.nonempty
  within t ht := by
    have hin := h.within t ht
    rw [List.length_cons]
    omega
  text t ht := by
    have hin := h.within t ht
    have hoff : t.offset - off = (t.offset - (off + 1)) + 1 := by omega
    rw [hoff, List.drop_succ_cons]
    exact h.text t ht

/-- The tokens of a text, of which `skip` bytes belong to an earlier token. -/
theorem spans_tokensFrom (off skip : Nat) (l : List UInt8) :
    Spans off l (tokensFrom off skip l) ∧ ∀ t ∈ tokensFrom off skip l, off + skip ≤ t.offset := by
  induction l generalizing off skip with
  | nil =>
    rw [tokensFrom]
    exact ⟨⟨.nil, by simp, by simp, by simp⟩, by simp⟩
  | cons b l ih =>
    cases skip with
    | succ k =>
      obtain ⟨hspans, hlow⟩ := ih (off + 1) k
      refine ⟨hspans.behind, fun t ht => ?_⟩
      have := hlow t ht
      omega
    | zero =>
      rw [tokensFrom]
      split
      · obtain ⟨hspans, hlow⟩ := ih (off + 1) 0
        refine ⟨hspans.behind, fun t ht => ?_⟩
        have := hlow t ht
        omega
      · obtain ⟨hspans, hlow⟩ := ih (off + 1) (tokenRest b l)
        have hrest := hspans.behind (b := b)
        have hlen : (l.take (tokenRest b l)).length = tokenRest b l :=
          List.length_take_of_le (tokenRest_le b l)
        refine ⟨⟨List.pairwise_cons.2 ⟨fun u hu => ?_, hrest.apart⟩, ?_, ?_, ?_⟩, ?_⟩
        · have := hlow u hu
          simp only [Token.stop, List.length_cons, hlen]
          omega
        · exact List.forall_mem_cons.2 ⟨by simp, hrest.nonempty⟩
        · refine List.forall_mem_cons.2 ⟨⟨Nat.le_refl _, ?_⟩, hrest.within⟩
          have := tokenRest_le b l
          simp only [Token.stop, List.length_cons, hlen]
          omega
        · refine List.forall_mem_cons.2 ⟨?_, hrest.text⟩
          simp [hlen]
        · refine List.forall_mem_cons.2 ⟨Nat.le_refl _, fun u hu => ?_⟩
          have := hlow u hu
          omega

/-- A byte that belongs to no token is a blank. -/
theorem blank_outside {skip i : Nat} (hskip : skip ≤ i) (hb : l[i]? = some b)
    (hout : ∀ t ∈ tokensFrom off skip l, ¬ (t.offset ≤ off + i ∧ off + i < t.stop)) :
    isSpace b = true := by
  induction l generalizing off skip i with
  | nil => simp at hb
  | cons c l ih =>
    -- what is behind the first byte has one offset less in the rest
    have hlater {skip' j : Nat} (hj : skip' ≤ j) (hlb : l[j]? = some b)
        (hl : ∀ t ∈ tokensFrom (off + 1) skip' l,
          ¬ (t.offset ≤ off + (j + 1) ∧ off + (j + 1) < t.stop)) : isSpace b = true := by
      have hshifted : ∀ t ∈ tokensFrom (off + 1) skip' l,
          ¬ (t.offset ≤ off + 1 + j ∧ off + 1 + j < t.stop) := by
        intro t ht
        rw [Nat.add_right_comm, Nat.add_assoc]
        exact hl t ht
      exact ih hj hlb hshifted
    cases skip with
    | succ k =>
      obtain ⟨j, rfl⟩ : ∃ j, i = j + 1 := ⟨i - 1, by omega⟩
      exact hlater (Nat.le_of_succ_le_succ hskip) hb hout
    | zero =>
      rw [tokensFrom] at hout
      split at hout
      · rename_i hc
        cases i with
        | zero =>
          cases hb
          exact hc
        | succ j => exact hlater (Nat.zero_le j) hb hout
      · obtain ⟨hfirst, hrest⟩ := List.forall_mem_cons.1 hout
        have hstop : Token.stop ⟨c :: l.take (tokenRest c l), off⟩ = off + (tokenRest c l + 1) := by
          simp [Token.stop, tokenRest_le]
        simp only [hstop, Nat.le_add_right, true_and] at hfirst
        obtain ⟨j, rfl⟩ : ∃ j, i = j + 1 := ⟨i - 1, by omega⟩
        exact hlater (by omega) hb hrest

/-- Blanking out keeps the length of a source and each of its bytes, apart from bytes that are no
line end and become blanks; so an offset is in the same line before and after.  The tokens of any
text have at least one byte each, stand one behind the other without overlap, and have the bytes
that stand at their offsets; what is outside of them is blank. -/
theorem positions_kept (src : List UInt8) :
    (strip src).length = src.length ∧
    List.Forall₂ (fun b b' => b' = b ∨ b ≠ newline ∧ b' = 32) src (strip src) ∧
    (∀ n, ((strip src).take n).count newline = (src.take n).count newline) ∧
    (tokens src).Pairwise (fun t u => t.offset < u.offset ∧ t.offset + t.bytes.length ≤ u.offset) ∧
    (∀ t ∈ tokens src, t.bytes ≠ [] ∧ t.offset + t.bytes.length ≤ src.length ∧
      t.bytes = (src.drop t.offset).take t.bytes.length) ∧
    ∀ i b, src[i]? = some b →
      (∀ t ∈ tokens src, ¬ (t.offset ≤ i ∧ i < t.offset + t.bytes.length)) →
      b = 32 ∨ b = 9 ∨ b = 13 ∨ b = 10 := by
  have hblanks := forall₂_strip src
  have hspans := (spans_tokensFrom 0 0 src).1
  refine ⟨hblanks.length_eq.symm, hblanks,
    fun n => count_newline_of_blanks (List.forall₂_take n hblanks), ?apart,
    fun t ht => ⟨hspans.nonempty t ht, ?within, ?text⟩, fun i b hb hout => ?outside⟩
  case apart =>
    refine hspans.apart.imp_of_mem fun {t u} ht _ h => ⟨?_, h⟩
    have hpos := List.length_pos_iff.2 (hspans.nonempty t ht)
    have hstop : t.offset + t.bytes.length ≤ u.offset := h
    omega
  case within =>
    have hstop := (hspans.within t ht).2
    rwa [Nat.zero_add] at hstop
  case text => exact hspans.text t ht
  case outside =>
    have hblank : isSpace b = true := blank_outside (Nat.zero_le i) hb fun t ht => by
      rw [Nat.zero_add]
      exact hout t ht
    simp only [isSpace, Bool.or_eq_true, beq_iff_eq] at hblank
    rcases hblank with ((h | h) | h) | h <;> simp [h]

/-- A word, a comment over two lines, and a string that ends behind its backslash. -/
def ragged : List UInt8 := Text.bytes "w /*x\n*/ \"a\\"

theorem positions_kept_ragged :
    (strip ragged).length = 12 ∧
    ((strip ragged).take 9).count newline = 1 ∧
    tokens (strip ragged) = [⟨Text.bytes "w", 0⟩, ⟨Text.bytes "\"a\\", 9⟩] ∧
    (∀ t ∈ tokens (strip ragged), t.bytes = ((strip ragged).drop t.offset).take t.bytes.length) ∧
    ∃ b, (strip ragged)[8]? = some b ∧ (b = 32 ∨ b = 9 ∨ b = 13 ∨ b = 10) := by
  obtain ⟨hlength, -, hlines, -⟩ := positions_kept ragged
  obtain ⟨-, -, -, -, hmem, hout⟩ := positions_kept (strip ragged)
  have htokens : tokens (strip ragged) =
      [⟨Text.bytes "w", 0⟩, ⟨Text.bytes "\"a\\", 9⟩] := by decide
  refine ⟨hlength.trans (by decide), (hlines 9).trans (by decide), htokens,
    fun t ht => (hmem t ht).2.2, 32, by decide, hout 8 32 (by decide) ?_⟩
  rw [htokens]
  decide

end TaskLoom.Source
