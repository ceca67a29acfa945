import TaskLoom.Files.Tree

/-!
# What paths mean

A path is read element by element: empty and `.` elements stay where they are, `..` goes back, every
other element goes on.  `Path.stack p` is where this ends, `Path.resolve dir p` is where it ends
when it begins at `dir`.  The places that are reached in this way are `Normal`, and the text of a
normal place is read back as that place (`stack_ofElements`), so two clean paths are equal exactly
if they mean the same place (`join_eq_iff`).  Paths with plain elements only all mean different
places (`resolve_inj`).

A tree on disk that follows a path ends at its clean form (`FileTree.locate_disk`).
-/

namespace TaskLoom

/-! ### Pieces between separators -/

namespace Text

variable {sep : Char}

theorem splitOn_ne_nil (sep : Char) (cs : List Char) : splitOn sep cs ≠ [] := by
  cases cs with
  | nil => simp [splitOn]
  | cons c cs =>
    unfold splitOn
    split
    · simp
    · split <;> simp

theorem splitOn_cons (c : Char) {cs piece : List Char} {pieces : List (List Char)}
    (h : splitOn sep cs = piece :: pieces) : splitOn sep (c :: cs) =
      if c = sep then [] :: piece :: pieces else (c :: piece) :: pieces := by
  rw [splitOn, h]

theorem exists_pieces (sep : Char) (cs : List Char) :
    ∃ piece pieces, splitOn sep cs = piece :: pieces :=
  List.exists_cons_of_ne_nil (splitOn_ne_nil sep cs)

theorem splitOn_append (xs ys : List Char) :
    splitOn sep (xs ++ sep :: ys) = splitOn sep xs ++ splitOn sep ys := by
  induction xs with
  | nil =>
    obtain ⟨piece, pieces, h⟩ := exists_pieces sep ys
    rw [List.nil_append, splitOn_cons sep h, if_pos rfl, ← h]
    rfl
  | cons x xs ih =>
    obtain ⟨piece, pieces, h⟩ := exists_pieces sep xs
    rw [h] at ih
    rw [List.cons_append, splitOn_cons x ih, splitOn_cons x h]
    split <;> rfl

theorem not_mem_of_mem_splitOn {cs piece : List Char} (h : piece ∈ splitOn sep cs) :
    sep ∉ piece := by
  induction cs generalizing piece with
  | nil => simp_all [splitOn]
  | cons c cs ih =>
    obtain ⟨first, pieces, hcs⟩ := exists_pieces sep cs
    have hfirst := ih (hcs ▸ List.mem_cons_self)
    have hrest {p : List Char} (hp : p ∈ pieces) : sep ∉ p := ih (hcs ▸ List.mem_cons_of_mem _ hp)
    rw [splitOn_cons c hcs] at h
    split at h
    · rcases List.mem_cons.1 h with rfl | h
      · exact List.not_mem_nil
      · rcases List.mem_cons.1 h with rfl | h
        · exact hfirst
        · exact hrest h
    · rename_i hc
      rcases List.mem_cons.1 h with rfl | h
      · exact fun hmem => (List.mem_cons.1 hmem).elim (fun he => hc he.symm) hfirst
      · exact hrest h

theorem splitOn_of_not_mem {cs : List Char} (h : sep ∉ cs) : splitOn sep cs = [cs] := by
  induction cs with
  | nil => rfl
  | cons c cs ih =>
    rw [List.mem_cons, not_or] at h
    rw [splitOn_cons c (ih h.2), if_neg (Ne.symm h.1)]

theorem intercalate_splitOn (cs : List Char) : [sep].intercalate (splitOn sep cs) = cs := by
  induction cs with
  | nil => rfl
  | cons c cs ih =>
    obtain ⟨piece, pieces, h⟩ := exists_pieces sep cs
    rw [h] at ih
    rw [splitOn_cons c h]
    split
    · rename_i hc
      rw [hc, List.intercalate_cons_cons, ih]
      rfl
    · cases pieces with
      | nil =>
        rw [List.intercalate_singleton] at ih ⊢
        rw [ih]
      | cons second pieces =>
        rw [List.intercalate_cons_cons] at ih ⊢
        rw [← ih]
        rfl

/-- What ends in a text without separators has that end in its last piece. -/
theorem splitOn_append_of_not_mem (xs : List Char) {ending : List Char} (h : sep ∉ ending) :
    ∃ before piece, splitOn sep (xs ++ ending) = before ++ [piece ++ ending] := by
  induction xs with
  | nil => exact ⟨[], [], splitOn_of_not_mem h⟩
  | cons x xs ih =>
    obtain ⟨before, piece, hsplit⟩ := ih
    cases before with
    | nil =>
      rw [List.cons_append, splitOn_cons x hsplit]
      split
      · exact ⟨[[]], piece, rfl⟩
      · exact ⟨[], x :: piece, rfl⟩
    | cons first before =>
      rw [List.cons_append, splitOn_cons x hsplit]
      split
      · exact ⟨[] :: first :: before, piece, rfl⟩
      · exact ⟨(x :: first) :: before, piece, rfl⟩

end Text

namespace Path

theorem elements_append (p q : String) : elements (p ++ "/" ++ q) = elements p ++ elements q := by
  have hchars : (p ++ "/" ++ q).toList = p.toList ++ '/' :: q.toList := by simp
  rw [elements, hchars, Text.splitOn_append, List.map_append]
  rfl

theorem slash_not_mem {p e : String} (h : e ∈ elements p) : '/' ∉ e.toList := by
  obtain ⟨piece, hpiece, rfl⟩ := List.mem_map.1 h
  rw [String.toList_ofList]
  exact Text.not_mem_of_mem_splitOn hpiece

theorem elements_of_slashless {e : String} (h : '/' ∉ e.toList) : elements e = [e] := by
  rw [elements, Text.splitOn_of_not_mem h, List.map_singleton, String.ofList_toList]

theorem intercalate_elements (p : String) : String.intercalate "/" (elements p) = p := by
  refine String.toList_inj.1 ?_
  rw [String.toList_intercalate, elements, List.map_map]
  have hchars : String.toList ∘ String.ofList = id := funext fun _ => String.toList_ofList
  rw [hchars, List.map_id]
  exact Text.intercalate_splitOn p.toList

theorem elements_inj {p q : String} (h : elements p = elements q) : p = q := by
  rw [← intercalate_elements p, h, intercalate_elements]

theorem elements_intercalate {es : List String} (hne : es ≠ [])
    (h : ∀ e ∈ es, '/' ∉ e.toList) : elements (String.intercalate "/" es) = es := by
  induction es with
  | nil => exact absurd rfl hne
  | cons e es ih =>
    have he := elements_of_slashless (h e List.mem_cons_self)
    cases es with
    | nil => rw [String.intercalate_singleton, he]
    | cons e' es =>
      rw [String.intercalate_cons_cons, elements_append, he,
        ih (List.cons_ne_nil _ _) fun x hx => h x (List.mem_cons_of_mem _ hx)]
      rfl

/-- A path that ends in a text without slashes has that end in its last element. -/
theorem exists_last_element {p : String} (ending : String) (hend : Text.endsWith p ending = true)
    (h : '/' ∉ ending.toList) : ∃ before stem, elements p = before ++ [stem ++ ending] := by
  obtain ⟨xs, hxs⟩ := List.isSuffixOf_iff_suffix.1 hend
  obtain ⟨before, piece, hsplit⟩ := Text.splitOn_append_of_not_mem xs h
  refine ⟨before.map String.ofList, String.ofList piece, ?_⟩
  rw [elements, ← hxs, hsplit, List.map_append, List.map_singleton]
  exact congrArg _ (congrArg (fun e => [e]) (String.toList_inj.1 (by simp)))

/-! ### Normal places -/

section
variable {rooted : Bool} {done es : List String} {e : String}

theorem push_of_idle (h : e = "" ∨ e = ".") : push rooted done e = done := by
  rcases h with rfl | rfl <;> simp [push]

theorem push_plain (h : e ≠ "") (h' : e ≠ ".") (h'' : e ≠ "..") : push rooted done e = e :: done := by
  simp [push, h, h', h'']

/-- A place that reading elements can lead to, in reverse order. -/
structure Normal (rooted : Bool) (done : List String) : Prop where
  names : ∀ e ∈ done, e ≠ "" ∧ e ≠ "." ∧ '/' ∉ e.toList
  stable : done.reverse.foldl (Path.push rooted) [] = done

theorem Normal.nil (rooted : Bool) : Normal rooted [] := ⟨by simp, rfl⟩

theorem Normal.tail {d : String} (h : Normal rooted (d :: done)) (hd : d ≠ "..") :
    Normal rooted done := by
  have hnames := h.names d List.mem_cons_self
  have hstable := h.stable
  rw [List.reverse_cons, List.foldl_append, List.foldl_cons, List.foldl_nil,
    push_plain hnames.1 hnames.2.1 hd] at hstable
  exact ⟨fun e he => h.names e (List.mem_cons_of_mem _ he), (List.cons.inj hstable).2⟩

/-- A further element at the end. -/
theorem Normal.cons (h : Normal rooted done) (he : e ≠ "" ∧ e ≠ "." ∧ '/' ∉ e.toList)
    (hpush : Path.push rooted done e = e :: done) : Normal rooted (e :: done) := by
  refine ⟨List.forall_mem_cons.2 ⟨he, h.names⟩, ?_⟩
  rw [List.reverse_cons, List.foldl_append, h.stable]
  exact hpush

theorem Normal.push (h : Normal rooted done) (he : '/' ∉ e.toList) :
    Normal rooted (Path.push rooted done e) := by
  by_cases hidle : e = "" ∨ e = "."
  · rw [push_of_idle hidle]
    exact h
  rw [not_or] at hidle
  have hnames : e ≠ "" ∧ e ≠ "." ∧ '/' ∉ e.toList := ⟨hidle.1, hidle.2, he⟩
  by_cases hback : e = ".."
  · subst hback
    cases done with
    | nil =>
      cases rooted with
      | true => exact h
      | false => exact h.cons hnames rfl
    | cons d done =>
      by_cases hd : d = ".."
      · subst hd
        exact h.cons hnames rfl
      · have hpop : Path.push rooted (d :: done) ".." = done := by simp [Path.push, hd]
        rw [hpop]
        exact h.tail hd
  · rw [push_plain hidle.1 hidle.2 hback]
    exact h.cons hnames (push_plain hidle.1 hidle.2 hback)

theorem Normal.foldl (h : Normal rooted done) (hes : ∀ e ∈ es, '/' ∉ e.toList) :
    Normal rooted (es.foldl (Path.push rooted) done) := by
  induction es generalizing done with
  | nil => exact h
  | cons e es ih =>
    exact ih (h.push (hes e List.mem_cons_self)) fun x hx => hes x (List.mem_cons_of_mem _ hx)

/-- A text of elements begins with the first of them. -/
theorem exists_intercalate (e : String) (es : List String) :
    ∃ rest, String.intercalate "/" (e :: es) = e ++ rest := by
  cases es with
  | nil => exact ⟨"", by simp⟩
  | cons e' es =>
    exact ⟨"/" ++ String.intercalate "/" (e' :: es), by
      rw [String.intercalate_cons_cons, String.append_assoc]⟩

/-- The text of elements is neither empty nor rooted. -/
theorem head_intercalate (hne : es ≠ []) (h : ∀ e ∈ es, e ≠ "" ∧ '/' ∉ e.toList) :
    ∃ c cs, (String.intercalate "/" es).toList = c :: cs ∧ c ≠ '/' := by
  obtain ⟨e, es, rfl⟩ := List.exists_cons_of_ne_nil hne
  obtain ⟨hempty, hslash⟩ := h e List.mem_cons_self
  obtain ⟨rest, hrest⟩ := exists_intercalate e es
  rw [hrest, String.toList_append]
  cases hchars : e.toList with
  | nil => exact absurd (String.toList_inj.1 hchars) hempty
  | cons c cs =>
    refine ⟨c, cs ++ rest.toList, rfl, ?_⟩
    rintro rfl
    exact hslash (hchars ▸ List.mem_cons_self)

theorem isRooted_of_toList {p : String} {c : Char} {cs : List Char} (h : p.toList = c :: cs) :
    isRooted p = (c == '/') := by
  rw [isRooted, h, List.head?_cons]
  rfl

theorem isRooted_append {dir : String} (h : dir ≠ "") (s : String) :
    isRooted (dir ++ s) = isRooted dir := by
  cases hchars : dir.toList with
  | nil => exact absurd (String.toList_inj.1 hchars) h
  | cons c cs =>
    have hall : (dir ++ s).toList = c :: (cs ++ s.toList) := by
      rw [String.toList_append, hchars]
      rfl
    rw [isRooted_of_toList hchars, isRooted_of_toList hall]

theorem Normal.slashless (h : Normal rooted done) : ∀ e ∈ done.reverse, e ≠ "" ∧ '/' ∉ e.toList :=
  fun e he => ⟨(h.names e (List.mem_reverse.1 he)).1, (h.names e (List.mem_reverse.1 he)).2.2⟩

/-- The text of a place that is not rooted and not the beginning. -/
theorem Normal.ofElements_eq (h : Normal false done) (hne : done ≠ []) :
    ofElements false done.reverse = String.intercalate "/" done.reverse := by
  obtain ⟨c, cs, hchars, -⟩ := head_intercalate (by simpa using hne) h.slashless
  have hempty : String.intercalate "/" done.reverse ≠ "" := by
    intro he
    rw [he] at hchars
    cases hchars
  simp only [ofElements, Bool.false_eq_true, if_false, beq_iff_eq, if_neg hempty]

theorem ofElements_ne_empty (h : Normal rooted done) : ofElements rooted done.reverse ≠ "" := by
  intro he
  have hchars := congrArg String.toList he
  cases rooted with
  | true => simp [ofElements] at hchars
  | false =>
    by_cases hne : done = []
    · subst hne
      exact absurd he (by decide)
    · obtain ⟨c, cs, hcons, -⟩ := head_intercalate (by simpa using hne) h.slashless
      rw [h.ofElements_eq hne, hcons] at hchars
      cases hchars

theorem isRooted_ofElements (h : Normal rooted done) :
    isRooted (ofElements rooted done.reverse) = rooted := by
  cases rooted with
  | true => exact isRooted_append (by decide : "/" ≠ "") _
  | false =>
    by_cases hne : done = []
    · subst hne
      rfl
    · obtain ⟨c, cs, hchars, hc⟩ := head_intercalate (by simpa using hne) h.slashless
      rw [h.ofElements_eq hne, isRooted_of_toList hchars]
      simpa using hc

/-- The text of a place leads to that place. -/
theorem foldl_ofElements (h : Normal rooted done) :
    (elements (ofElements rooted done.reverse)).foldl (Path.push rooted) [] = done := by
  have hslash : ∀ e ∈ done.reverse, '/' ∉ e.toList := fun e he => (h.slashless e he).2
  by_cases hne : done = []
  · subst hne
    cases rooted <;> rfl
  have hes := elements_intercalate (by simpa using hne) hslash
  cases rooted with
  | false => rw [h.ofElements_eq hne, hes, h.stable]
  | true =>
    have htext : ofElements true done.reverse = "" ++ "/" ++ String.intercalate "/" done.reverse := by
      simp [ofElements]
    rw [htext, elements_append, hes, List.foldl_append]
    exact h.stable

/-- The text of a place ends in its last element. -/
theorem exists_ofElements (h : Normal rooted (e :: done)) :
    ∃ front, ofElements rooted (e :: done).reverse = front ++ e := by
  have hlast : ∃ front, String.intercalate "/" (e :: done).reverse = front ++ e := by
    rw [List.reverse_cons]
    by_cases hne : done = []
    · subst hne
      exact ⟨"", by simp⟩
    · exact ⟨_, by
        rw [String.intercalate_append_of_ne_nil (by simpa using hne) (List.cons_ne_nil _ _),
          String.intercalate_singleton]⟩
  obtain ⟨front, hfront⟩ := hlast
  cases rooted with
  | false => exact ⟨front, by rw [h.ofElements_eq (List.cons_ne_nil _ _), hfront]⟩
  | true => exact ⟨"/" ++ front, by rw [String.append_assoc, ← hfront]; rfl⟩

end

/-! ### Clean paths -/

/-- The place that a path means, in reverse order. -/
def stack (p : String) : List String := (elements p).foldl (push (isRooted p)) []

/-- The place that a path means below a directory. -/
def resolve (dir p : String) : List String := (elements p).foldl (push (isRooted dir)) (stack dir)

theorem normal_stack (p : String) : Normal (isRooted p) (stack p) :=
  (Normal.nil _).foldl fun _ he => slash_not_mem he

theorem normal_resolve (dir p : String) : Normal (isRooted dir) (resolve dir p) :=
  (normal_stack dir).foldl fun _ he => slash_not_mem he

theorem clean_eq (p : String) : clean p = ofElements (isRooted p) (stack p).reverse := rfl

theorem stack_ofElements {rooted : Bool} {done : List String} (h : Normal rooted done) :
    stack (ofElements rooted done.reverse) = done := by
  rw [stack, isRooted_ofElements h, foldl_ofElements h]

theorem ofElements_inj {rooted : Bool} {done done' : List String} (h : Normal rooted done)
    (h' : Normal rooted done')
    (he : ofElements rooted done.reverse = ofElements rooted done'.reverse) : done = done' := by
  rw [← stack_ofElements h, he, stack_ofElements h']

/-- The text of a place is clean. -/
theorem clean_ofElements {rooted : Bool} {done : List String} (h : Normal rooted done) :
    clean (ofElements rooted done.reverse) = ofElements rooted done.reverse := by
  rw [clean_eq, isRooted_ofElements h, stack_ofElements h]

theorem isRooted_below {dir : String} (h : dir ≠ "") (p : String) :
    isRooted (dir ++ "/" ++ p) = isRooted dir := by
  rw [String.append_assoc]
  exact isRooted_append h _

theorem stack_below {dir : String} (h : dir ≠ "") (p : String) :
    stack (dir ++ "/" ++ p) = resolve dir p := by
  rw [stack, isRooted_below h, elements_append, List.foldl_append]
  rfl

theorem join_eq {dir : String} (h : dir ≠ "") (p : String) :
    join dir p = ofElements (isRooted dir) (resolve dir p).reverse := by
  by_cases hp : p = ""
  · subst hp
    simp [join, h]
    rfl
  · have hjoin : join dir p = clean (dir ++ "/" ++ p) := by simp [join, h, hp]
    rw [hjoin, clean_eq, stack_below h, isRooted_below h]

theorem clean_join {dir : String} (h : dir ≠ "") (p : String) : clean (join dir p) = join dir p := by
  rw [join_eq h]
  exact clean_ofElements (normal_resolve dir p)

/-- Two paths below a directory are one path exactly if they mean one place. -/
theorem join_eq_iff {dir : String} (h : dir ≠ "") (p q : String) :
    join dir p = join dir q ↔ resolve dir p = resolve dir q := by
  rw [join_eq h, join_eq h]
  exact ⟨ofElements_inj (normal_resolve dir p) (normal_resolve dir q), fun he => by rw [he]⟩

/-- A path whose elements all go on. -/
def Plain (p : String) : Prop := ∀ e ∈ elements p, e ≠ "" ∧ e ≠ "." ∧ e ≠ ".."

instance (p : String) : Decidable (Plain p) := inferInstanceAs (Decidable (∀ e ∈ elements p, _))

theorem resolve_plain {dir p : String} (h : Plain p) :
    resolve dir p = (elements p).reverse ++ stack dir := by
  unfold resolve
  unfold Plain at h
  generalize stack dir = done at *
  generalize elements p = es at *
  induction es generalizing done with
  | nil => rfl
  | cons e es ih =>
    obtain ⟨hempty, hdot, hback⟩ := h e List.mem_cons_self
    rw [List.foldl_cons, push_plain hempty hdot hback,
      ih _ fun x hx => h x (List.mem_cons_of_mem _ hx)]
    simp

/-- Plain paths mean different places. -/
theorem resolve_inj {dir p q : String} (hp : Plain p) (hq : Plain q)
    (h : resolve dir p = resolve dir q) : p = q := by
  rw [resolve_plain hp, resolve_plain hq] at h
  exact elements_inj (List.reverse_inj.1 (List.append_cancel_right h))

end Path

namespace FileTree

variable {t : FileTree} {c p : String}

/-- Following elements from a place leads to the place that they mean from there. -/
theorem follow_eq {rooted : Bool} {done es : List String} (h : Path.Normal rooted done)
    (hes : ∀ e ∈ es, '/' ∉ e.toList)
    (hf : t.follow (Path.ofElements rooted done.reverse) es = .ok c) :
    c = Path.ofElements rooted (es.foldl (Path.push rooted) done).reverse := by
  induction es generalizing done with
  | nil =>
    cases hf
    rfl
  | cons e es ih =>
    rw [follow] at hf
    split at hf
    · cases hf
    have he := hes e List.mem_cons_self
    refine ih (h.push he) (fun x hx => hes x (List.mem_cons_of_mem _ hx)) ?_
    rw [← hf]
    congr 1
    by_cases hempty : e = ""
    · subst hempty
      rw [Path.push_of_idle (.inl rfl)]
      rfl
    · rw [if_neg (by simpa using hempty), Path.join_eq (Path.ofElements_ne_empty h),
        Path.isRooted_ofElements h, Path.resolve, Path.isRooted_ofElements h,
        Path.stack_ofElements h, Path.elements_of_slashless he]
      rfl

/-- On disk a path leads to its clean form, if it leads anywhere. -/
theorem locate_disk (hs : t.storage = .disk) (h : t.locate p = .ok c) : c = Path.clean p := by
  unfold locate at h
  rw [hs] at h
  simp only at h
  have hslash : ∀ e ∈ Path.elements p, '/' ∉ e.toList := fun e he => Path.slash_not_mem he
  rw [Path.clean_eq, Path.stack]
  split at h
  · rename_i hrooted
    rw [hrooted]
    exact follow_eq (.nil true) hslash h
  · rename_i hrooted
    rw [Bool.not_eq_true] at hrooted
    split at h
    · cases h
    · rw [hrooted]
      exact follow_eq (.nil false) hslash h

end FileTree

end TaskLoom
