import TaskLoom.Proofs.Hdl.Spans
import TaskLoom.Proofs.Hdl.Splicing

/-!
# Where declarations come from

Every name, value and range that a reader returns stands in the source: a name is a token of it
(`HasName`), a value stands between two marks, and so do the two bounds of a range (`HasValue`,
`HasRange`).  Each reader keeps this, from the values up to the modules of a source (`parse_from`).
So a name is a word or an escaped identifier (`HasName.isName`), and a value or range with clear
texts is read back (`HasValue.isValue`, `HasRange.isRange`).
-/

namespace TaskLoom.Source

open Text (bytes)

theorem isMark_of_endWord {t : Token} (h : t.text ∈ endWords) : t.IsMark := by
  obtain ⟨b, hb, hlt, -⟩ := endWord_bytes h
  exact ⟨b, hb, hlt⟩

/-- The tokens of a value end before a bracket or a separator, or with the source. -/
theorem takeValue_split (d : Nat) (ts : List Token) :
    ts = (takeValue d ts).1 ++ (takeValue d ts).2 ∧ ∀ t ∈ (takeValue d ts).2.head?,
      t.text ∈ endWords ∧ closedValue d ((takeValue d ts).1.map Token.text) = true := by
  induction ts generalizing d with
  | nil => exact ⟨rfl, by simp [takeValue]⟩
  | cons t ts ih =>
    rw [takeValue]
    simp only
    split_ifs with hopens hcloses hd hsep
    · obtain ⟨hsplit, hend⟩ := ih (d + 1)
      refine ⟨congrArg (t :: ·) hsplit, fun u hu => ⟨(hend u hu).1, ?_⟩⟩
      rw [List.map_cons, closedValue, if_pos hopens]
      exact (hend u hu).2
    · refine ⟨rfl, fun u hu => ?_⟩
      cases hu
      refine ⟨?_, by simp [closedValue, hd]⟩
      simp only [closes, Bool.or_eq_true, beq_iff_eq] at hcloses
      rcases hcloses with (ht | ht) | ht <;> rw [ht] <;> decide
    · obtain ⟨hsplit, hend⟩ := ih (d - 1)
      refine ⟨congrArg (t :: ·) hsplit, fun u hu => ⟨(hend u hu).1, ?_⟩⟩
      rw [List.map_cons, closedValue, if_neg hopens, if_pos hcloses, Bool.and_eq_true, bne_iff_ne]
      exact ⟨hd, (hend u hu).2⟩
    · rw [Bool.and_eq_true, Bool.or_eq_true, beq_iff_eq, beq_iff_eq, decide_eq_true_eq] at hsep
      refine ⟨rfl, fun u hu => ?_⟩
      cases hu
      refine ⟨?_, by simp [closedValue, hsep.2]⟩
      rcases hsep.1 with ht | ht <;> rw [ht] <;> decide
    · obtain ⟨hsplit, hend⟩ := ih d
      refine ⟨congrArg (t :: ·) hsplit, fun u hu => ⟨(hend u hu).1, ?_⟩⟩
      rw [List.map_cons, closedValue, if_neg hopens, if_neg hcloses, Bool.and_eq_true]
      refine ⟨?_, (hend u hu).2⟩
      rw [Bool.and_eq_true, not_and_or, Bool.not_eq_true, decide_eq_true_eq] at hsep
      rw [Bool.or_eq_true, bne_iff_ne, Bool.not_eq_true']
      exact hsep.symm

section
variable (clean : List UInt8)

/-- The lower bound of a range, of which `lsb` was read already. -/
theorem rangeBounds_some {d : Int} {msb lsb ts rest : List Token} {r : BitRange}
    (h : rangeBounds clean d msb (some lsb) ts = .ok (r, rest)) :
    ∃ vs e, ts = vs ++ e :: rest ∧ e.text = "]" ∧ closedBound false d (vs.map Token.text) = true ∧
      r = ⟨spanText clean msb.reverse, spanText clean (lsb.reverse ++ vs)⟩ := by
  induction ts generalizing d lsb with
  | nil => cases h
  | cons t ts ih =>
    cases hend : t.text == "]" && decide (d ≤ 0) with
    | true =>
      simp only [rangeBounds, hend, if_true] at h
      obtain ⟨rfl, rfl⟩ := Prod.mk.inj (Except.ok.inj h)
      rw [Bool.and_eq_true, beq_iff_eq, decide_eq_true_eq] at hend
      exact ⟨[], t, rfl, hend.1, by simp [closedBound, hend.2], by rw [List.append_nil]⟩
    | false =>
      have hcolon : (t.text == ":" && d == 0 && (some lsb).isNone) = false := by
        rw [Option.isNone_some, Bool.and_false]
      rw [rangeBounds_token hend hcolon] at h
      obtain ⟨vs, e, rfl, he, hclosed, rfl⟩ := ih h
      refine ⟨t :: vs, e, rfl, he, ?_, ?_⟩
      · rw [List.map_cons, closedBound, hend, hclosed, Bool.false_and, Bool.false_and]
        rfl
      · rw [List.reverse_cons, List.append_assoc, List.singleton_append]

/-- The bounds of a range, of which `msb` was read already. -/
theorem rangeBounds_none {d : Int} {msb ts rest : List Token} {r : BitRange}
    (h : rangeBounds clean d msb none ts = .ok (r, rest)) :
    ∃ us c vs e, ts = us ++ c :: (vs ++ e :: rest) ∧ c.text = ":" ∧ e.text = "]" ∧
      closedBound true d (us.map Token.text) = true ∧
      closedBound false 0 (vs.map Token.text) = true ∧
      r = ⟨spanText clean (msb.reverse ++ us), spanText clean vs⟩ := by
  induction ts generalizing d msb with
  | nil => cases h
  | cons t ts ih =>
    cases hend : t.text == "]" && decide (d ≤ 0) with
    | true =>
      simp only [rangeBounds, hend, if_true] at h
      cases h
    | false =>
      cases hcolon : t.text == ":" && d == 0 with
      | true =>
        simp only [rangeBounds, hend, hcolon, Bool.false_eq_true, if_false, if_true,
          Option.isNone_none, Bool.and_self] at h
        rw [Bool.and_eq_true, beq_iff_eq, beq_iff_eq] at hcolon
        obtain ⟨ht, rfl⟩ := hcolon
        obtain ⟨vs, e, rfl, he, hclosed, rfl⟩ := rangeBounds_some clean h
        exact ⟨[], t, vs, e, rfl, ht, he, rfl, hclosed, by rw [List.append_nil]; rfl⟩
      | false =>
        have hnone : (t.text == ":" && d == 0 && (none : Option (List Token)).isNone) = false := by
          rw [hcolon, Bool.false_and]
        rw [rangeBounds_token hend hnone] at h
        obtain ⟨us, c, vs, e, rfl, hc, he, hupper, hlower, rfl⟩ := ih h
        refine ⟨t :: us, c, vs, e, rfl, hc, he, ?_, hlower, ?_⟩
        · rw [List.map_cons, closedBound, hend, Bool.true_and, hcolon, hupper]
          rfl
        · simp

/-! ### What stands in a source -/

/-- A name that is a token of the source. -/
def HasName (name : String) : Prop := ∃ t ∈ tokens clean, t.isName = true ∧ t.text = name

/-- A value that stands between two marks of the source. -/
def HasValue (s : String) : Prop :=
  ∃ ts, Cut clean ts ∧ closedValue 0 (ts.map Token.text) = true ∧ spanText clean ts = s

/-- A range whose bounds stand between marks of the source. -/
def HasRange (r : BitRange) : Prop :=
  ∃ us vs, Cut clean us ∧ Cut clean vs ∧ closedBound true 0 (us.map Token.text) = true ∧
    closedBound false 0 (vs.map Token.text) = true ∧ r = ⟨spanText clean us, spanText clean vs⟩

/-- A direction with a range of the source. -/
def HasType (type : Direction × Option BitRange) : Prop :=
  type.1 ≠ .unknown ∧ ∀ r ∈ type.2, HasRange clean r

/-- A parameter of the source. -/
structure HasParam (p : Param) : Prop where
  name : HasName clean p.name
  value : HasValue clean p.value
  range : ∀ r ∈ p.range, HasRange clean r

/-- A port of a header of the source. -/
structure HasDecl (d : PortDecl) : Prop where
  name : HasName clean d.name
  type : ∀ type ∈ d.type?, HasType clean type

end

section
variable {clean : List UInt8} {ts rest : List Token}

theorem mem_of_suffix {t : Token} (h : t :: ts <:+ tokens clean) : t ∈ tokens clean :=
  h.subset List.mem_cons_self

theorem cut_of_suffix {a b : Token} {us : List Token} (h : a :: (us ++ b :: ts) <:+ tokens clean)
    (ha : a.IsMark) (hb : b.IsMark) : Cut clean us := by
  obtain ⟨before, hbefore⟩ := h
  exact ⟨before, a, b, ts, hbefore.symm, ha, hb⟩

theorem hasRange_typeAndRange {r : Option BitRange} (hts : ts <:+ tokens clean)
    (h : typeAndRange clean ts = .ok (r, rest)) : ∀ b ∈ r, HasRange clean b := by
  replace hts := (List.dropWhile_suffix fun t : Token => typeWords.contains t.text).trans hts
  rw [typeAndRange] at h
  cases hus : ts.dropWhile fun t : Token => typeWords.contains t.text with
  | nil =>
    rw [hus, range] at h
    obtain ⟨rfl, -⟩ := Prod.mk.inj (Except.ok.inj h)
    simp
  | cons t us =>
    rw [hus] at h hts
    rw [range] at h
    split at h
    · rename_i hopen
      obtain ⟨⟨b, ws⟩, hbounds, h⟩ := bind_ok.1 h
      cases h
      obtain ⟨us, c, vs, e, rfl, hc, he, hupper, hlower, rfl⟩ := rangeBounds_none clean hbounds
      intro b hb
      cases hb
      have hmark {u : Token} (w : String) (hu : u.text = w) (hw : w ∈ endWords) : u.IsMark :=
        isMark_of_endWord (hu.symm ▸ hw)
      have ht := hmark "[" (eq_of_beq hopen) (by decide)
      have hc := hmark ":" hc (by decide)
      have he := hmark "]" he (by decide)
      have hlater : c :: (vs ++ e :: rest) <:+ tokens clean :=
        (List.suffix_append (t :: us) _).trans hts
      exact ⟨us, vs, cut_of_suffix hts ht hc, cut_of_suffix hlater hc he, hupper, hlower, rfl⟩
    · obtain ⟨rfl, -⟩ := Prod.mk.inj (Except.ok.inj h)
      simp

theorem headText_eq {w : String} (hw : w ≠ "") (h : headText ts = w) :
    ∃ t us, ts = t :: us ∧ t.text = w := by
  cases ts with
  | nil => exact absurd h.symm hw
  | cons t us => exact ⟨t, us, rfl, h⟩

theorem expect_ok {want : String} (h : expect want ts = .ok ((), rest)) :
    ∃ t, ts = t :: rest ∧ t.text = want := by
  cases ts with
  | nil => cases h
  | cons t ts =>
    rw [expect] at h
    split at h
    · rename_i ht
      cases h
      exact ⟨t, rfl, eq_of_beq ht⟩
    · cases h

theorem isMark_equals {t : Token} (h : t.text = "=") : t.IsMark := by
  have hbytes : t.bytes = bytes "=" := Text.bytes_of_ofBytes h (by decide)
  exact ⟨_, hbytes, by decide⟩

/-- The values of assignments that are followed by anything at all. -/
theorem hasParam_assignments {header isLocal : Bool} {r : Option BitRange} {fuel : Nat}
    {ps : List Param} (hts : ts <:+ tokens clean) (hr : ∀ b ∈ r, HasRange clean b)
    (h : assignments clean header isLocal r fuel ts = .ok (ps, rest)) (hrest : rest ≠ []) :
    ∀ p ∈ ps, HasParam clean p := by
  induction fuel generalizing ts ps with
  | zero =>
    cases h
    simp
  | succ fuel ih =>
    cases ts with
    | nil => cases h
    | cons t ts =>
      rw [assignments] at h
      split at h
      · cases h
      · rename_i hname
        have hts' := (List.suffix_cons t ts).trans hts
        obtain ⟨⟨⟨⟩, us⟩, hexpect, hread⟩ := bind_ok.1 h
        obtain ⟨e, rfl, he⟩ := expect_ok hexpect
        obtain ⟨hsplit, hend⟩ := takeValue_split 0 us
        simp only at hread
        generalize (takeValue 0 us).1 = value at hsplit hend hread
        generalize (takeValue 0 us).2 = tail at hsplit hend hread
        subst hsplit
        have htail : tail <:+ tokens clean :=
          ((List.suffix_append value tail).trans (List.suffix_cons e _)).trans hts'
        have hparam (hne : tail ≠ []) :
            HasParam clean ⟨t.text, spanText clean value, r, isLocal⟩ := by
          obtain ⟨b, vs, rfl⟩ := List.exists_cons_of_ne_nil hne
          obtain ⟨hb, hclosed⟩ := hend b rfl
          exact ⟨⟨t, mem_of_suffix hts, by simpa using hname, rfl⟩, ⟨value,
            cut_of_suffix hts' (isMark_equals he) (isMark_of_endWord hb), hclosed, rfl⟩, hr⟩
        split at hread
        · cases hread
          exact List.forall_mem_singleton.2 (hparam hrest)
        · rename_i hcomma
          rw [Bool.or_eq_true, not_or, bne_iff_ne, not_not] at hcomma
          obtain ⟨c, vs, rfl, -⟩ := headText_eq (by decide) hcomma.1
          obtain ⟨⟨qs, ws⟩, hlater, hread⟩ := bind_ok.1 hread
          cases hread
          exact List.forall_mem_cons.2 ⟨hparam (List.cons_ne_nil c vs),
            ih ((List.suffix_cons c vs).trans htail) hlater⟩

theorem hasParam_group {header : Bool} {ps : List Param} (hts : ts <:+ tokens clean)
    (h : paramGroup clean header ts = .ok (ps, rest)) (hrest : rest ≠ []) :
    ∀ p ∈ ps, HasParam clean p := by
  obtain ⟨⟨r, us⟩, hrange, h⟩ := bind_ok.1 h
  have hts' : (if headText ts == "parameter" || headText ts == "localparam" then ts.drop 1
      else ts) <:+ tokens clean := by
    split
    · exact (List.drop_suffix 1 ts).trans hts
    · exact hts
  exact hasParam_assignments ((typeAndRange_consumes clean hrange).trans hts')
    (hasRange_typeAndRange hts' hrange) h hrest

theorem ne_nil_of_suffix (h : rest <:+ ts) (hrest : rest ≠ []) : ts ≠ [] := by
  rintro rfl
  exact hrest (List.suffix_nil.1 h)

theorem hasParam_header {fuel : Nat} {ps : List Param} (hts : ts <:+ tokens clean)
    (h : headerParams clean fuel ts = .ok (ps, rest)) (hrest : rest ≠ []) :
    ∀ p ∈ ps, HasParam clean p := by
  induction fuel generalizing ts ps with
  | zero =>
    cases h
    simp
  | succ fuel ih =>
    rw [headerParams] at h
    simp only at h
    split_ifs at h
    · cases h
      simp
    · exact ih ((List.drop_suffix 1 ts).trans hts) h
    · obtain ⟨⟨qs, us⟩, hgroup, h⟩ := bind_ok.1 h
      obtain ⟨⟨qs', vs⟩, hlater, h⟩ := bind_ok.1 h
      cases h
      have hus := (paramGroup_consumes clean true hgroup).trans hts
      have hne := ne_nil_of_suffix (headerParams_consumes clean fuel hlater) hrest
      exact List.forall_mem_append.2 ⟨hasParam_group hts hgroup hne, ih hus hlater⟩

theorem hasParam_list {ps : List Param} (hts : ts <:+ tokens clean)
    (h : paramList clean ts = .ok (ps, rest)) : ∀ p ∈ ps, HasParam clean p := by
  rw [paramList] at h
  split at h
  · cases h
    simp
  · obtain ⟨⟨⟨⟩, us⟩, hopen, h⟩ := bind_ok.1 h
    obtain ⟨⟨qs, vs⟩, hparams, h⟩ := bind_ok.1 h
    obtain ⟨⟨⟨⟩, ws⟩, hclose, h⟩ := bind_ok.1 h
    cases h
    obtain ⟨c, rfl, -⟩ := expect_ok hclose
    have hus := ((expect_consumes _ hopen).trans (List.drop_suffix 1 ts)).trans hts
    exact hasParam_header hus hparams (List.cons_ne_nil c _)

theorem direction?_known {word : String} {d : Direction} (h : direction? word = some d) :
    d ≠ .unknown := by
  rw [direction?] at h
  split_ifs at h
  all_goals
    rintro rfl
    cases h

theorem hasDecl_portNames {fuel : Nat} {current : Option (Direction × Option BitRange)}
    {ds : List PortDecl} (hts : ts <:+ tokens clean) (hcurrent : ∀ type ∈ current, HasType clean type)
    (h : portNames clean fuel current ts = .ok (ds, rest)) : ∀ d ∈ ds, HasDecl clean d := by
  induction fuel generalizing ts current ds with
  | zero =>
    cases ts with
    | nil => cases h
    | cons t ts =>
      cases h
      simp
  | succ fuel ih =>
    cases ts with
    | nil => cases h
    | cons t ts =>
      have hts' := (List.suffix_cons t ts).trans hts
      rw [portNames] at h
      simp only at h
      split at h
      · cases h
        simp
      · split at h
        · exact ih hts' hcurrent h
        · split at h
          · rename_i d hd
            obtain ⟨⟨r, us⟩, hrange, h⟩ := bind_ok.1 h
            refine ih ((typeAndRange_consumes clean hrange).trans hts') ?_ h
            intro type htype
            cases htype
            exact ⟨direction?_known hd, hasRange_typeAndRange hts' hrange⟩
          · split at h
            · rename_i hname
              obtain ⟨⟨ds', us⟩, hlater, h⟩ := bind_ok.1 h
              cases h
              exact List.forall_mem_cons.2
                ⟨⟨⟨t, mem_of_suffix hts, hname, rfl⟩, hcurrent⟩, ih hts' hcurrent hlater⟩
            · cases h

theorem hasDecl_portList {ds : List PortDecl} (hts : ts <:+ tokens clean)
    (h : portList clean ts = .ok (ds, rest)) : ∀ d ∈ ds, HasDecl clean d := by
  rw [portList] at h
  split at h
  · exact hasDecl_portNames ((List.drop_suffix 1 ts).trans hts) (by simp) h
  · cases h
    simp

theorem hasDecl_declare {name : String} {type : Direction × Option BitRange}
    {ds ds' : List PortDecl} (hds : ∀ d ∈ ds, HasDecl clean d) (htype : HasType clean type)
    (h : declare? name type ds = some ds') : ∀ d ∈ ds', HasDecl clean d := by
  induction ds generalizing ds' with
  | nil => cases h
  | cons d ds ih =>
    obtain ⟨hd, hds⟩ := List.forall_mem_cons.1 hds
    rw [declare?] at h
    split at h
    · rename_i es hes
      cases h
      exact List.forall_mem_cons.2 ⟨hd, ih hds hes⟩
    · split at h
      · cases h
        refine List.forall_mem_cons.2 ⟨⟨hd.name, ?_⟩, hds⟩
        intro type' htype'
        cases htype'
        exact htype
      · cases h

theorem hasDecl_declaredNames {module : String} {type : Direction × Option BitRange} {fuel : Nat}
    {ds ds' : List PortDecl} (hds : ∀ d ∈ ds, HasDecl clean d) (htype : HasType clean type)
    (h : declaredNames module type fuel ds ts = .ok (ds', rest)) :
    ∀ d ∈ ds', HasDecl clean d := by
  induction fuel generalizing ts ds with
  | zero =>
    cases h
    exact hds
  | succ fuel ih =>
    cases ts with
    | nil => cases h
    | cons t ts =>
      rw [declaredNames] at h
      split at h
      · cases h
      · rename_i es hes
        have hes := hasDecl_declare hds htype hes
        split at h
        · exact ih hes h
        · cases h
          exact hes

theorem has_bodyItem {module : String} {ports ports' : List PortDecl} {params params' : List Param}
    (hts : ts <:+ tokens clean) (hports : ∀ d ∈ ports, HasDecl clean d)
    (hparams : ∀ p ∈ params, HasParam clean p)
    (h : bodyItem clean module ports params ts = .ok ((ports', params'), rest)) :
    (∀ d ∈ ports', HasDecl clean d) ∧ ∀ p ∈ params', HasParam clean p := by
  cases bodyItem_ok.1 h with
  | subroutine => exact ⟨hports, hparams⟩
  | parameter ht hgroup hend =>
    obtain ⟨c, rfl, -⟩ := expect_ok hend
    exact ⟨hports, List.forall_mem_append.2
      ⟨hparams, hasParam_group hts hgroup (List.cons_ne_nil c _)⟩⟩
  | @port t ts us vs rest d r ports' hd hrange hnames hend =>
    exact ⟨hasDecl_declaredNames hports ⟨direction?_known hd,
      hasRange_typeAndRange ((List.suffix_cons t ts).trans hts) hrange⟩ hnames, hparams⟩
  | other => exact ⟨hports, hparams⟩

theorem has_body {module : String} {fuel : Nat} {ports : List PortDecl} {params : List Param}
    {b : Body} (hts : ts <:+ tokens clean) (hports : ∀ d ∈ ports, HasDecl clean d)
    (hparams : ∀ p ∈ params, HasParam clean p)
    (h : body clean module fuel ports params ts = .ok (b, rest)) :
    (∀ d ∈ b.ports, HasDecl clean d) ∧ ∀ p ∈ b.params, HasParam clean p := by
  induction fuel generalizing ts ports params with
  | zero =>
    cases ts with
    | nil => cases h
    | cons t ts =>
      cases h
      exact ⟨hports, hparams⟩
  | succ fuel ih =>
    cases ts with
    | nil => cases h
    | cons t ts =>
      rw [body_cons] at h
      split at h
      · cases h
        exact ⟨hports, hparams⟩
      · obtain ⟨⟨⟨ports', params'⟩, us⟩, hitem, h⟩ := bind_ok.1 h
        obtain ⟨hports', hparams'⟩ := has_bodyItem hts hports hparams hitem
        exact ih ((bodyItem_consumes hitem).1.trans hts) hports' hparams' h

theorem has_moduleParts {name : String} {b : Body} (hts : ts <:+ tokens clean)
    (h : moduleParts clean ts = .ok ((name, b), rest)) : HasName clean name ∧
      (∀ d ∈ b.ports, HasDecl clean d) ∧ (∀ p ∈ b.params, HasParam clean p) ∧ rest <:+ ts := by
  cases ts with
  | nil => cases h
  | cons t ts =>
    obtain ⟨hname, rfl, params, us, hparams, h⟩ := moduleParts_ok.1 h
    obtain ⟨ports, vs, ws, hports, hexpect, hbody⟩ := portsAndBody_ok.1 h
    have hts' := (List.suffix_cons t ts).trans hts
    have hus := paramList_consumes clean hparams
    have hws := (expect_consumes _ hexpect).trans ((portList_consumes clean hports).trans hus)
    obtain ⟨zs, z, rfl, -⟩ := body_ends hbody (Nat.lt_succ_self _)
    have hrest : rest <:+ zs ++ z :: rest :=
      (List.suffix_cons z rest).trans (List.suffix_append zs (z :: rest))
    obtain ⟨hbports, hbparams⟩ := has_body (hws.trans hts')
      (hasDecl_portList (hus.trans hts') hports) (hasParam_list hts' hparams) hbody
    exact ⟨⟨t, mem_of_suffix hts, hname, rfl⟩, hbports, hbparams,
      (hrest.trans hws).trans (List.suffix_cons t ts)⟩

end

/-- A module whose declarations all stand in the source. -/
structure ReadFrom (clean : List UInt8) (m : Module) : Prop where
  name : HasName clean m.name
  ports : ∀ p ∈ m.ports, HasName clean p.name ∧ HasType clean (p.direction, p.range)
  params : ∀ p ∈ m.params, HasParam clean p

section
variable {clean : List UInt8} {m : Module}

/-- The ports that are added were declared. -/
theorem addPorts_ok {m' : Module} {ds : List PortDecl} (h : addPorts m ds = .ok m') :
    ∃ ps : List Port, ds = ps.map PortDecl.typed ∧ m.addAll (ps.map .port) = .ok m' := by
  induction ds generalizing m with
  | nil =>
    cases h
    exact ⟨[], rfl, rfl⟩
  | cons d ds ih =>
    rw [addPorts] at h
    split at h
    · cases h
    · rename_i direction range htype
      split at h
      · rename_i m₁ hadd
        obtain ⟨ps, rfl, hps⟩ := ih h
        refine ⟨⟨d.name, direction, range⟩ :: ps, ?_, Module.addAll_cons.2 ⟨m₁, hadd, hps⟩⟩
        rw [List.map_cons, PortDecl.typed, ← htype]
      · cases h

/-- The declarations of a module are those that were read. -/
theorem readFrom_toModule {name verbatim : String} {b : Body} (hname : HasName clean name)
    (hports : ∀ d ∈ b.ports, HasDecl clean d) (hparams : ∀ p ∈ b.params, HasParam clean p)
    (h : toModule name verbatim b = .ok m) : ReadFrom clean m := by
  obtain ⟨m₁, hadd, h⟩ := bind_ok.1 h
  obtain ⟨m₂, hadd', h⟩ := bind_ok.1 h
  cases h
  obtain ⟨ps, hps, hadd⟩ := addPorts_ok hadd
  have hall := Module.addAll_eq (Module.addAll_append.2 ⟨m₁, hadd, mapError_ok.1 hadd'⟩)
  rw [Module.pushAll_interface] at hall
  subst hall
  rw [hps] at hports
  refine ⟨hname, fun p hp => ?_, hparams⟩
  obtain ⟨hpname, hptype⟩ := hports _ (List.mem_map_of_mem hp)
  exact ⟨hpname, hptype _ rfl⟩

/-- The modules of a source are read from it. -/
theorem readFrom_modules {src : List UInt8} {fuel : Nat} {ts : List Token} {ms : List Module}
    (hts : ts <:+ tokens clean) (h : modulesFrom src clean fuel ts = .ok ms) :
    ∀ m ∈ ms, ReadFrom clean m := by
  induction fuel generalizing ts ms with
  | zero =>
    cases h
    simp
  | succ fuel ih =>
    cases ts with
    | nil =>
      cases h
      simp
    | cons t ts =>
      have hts' := (List.suffix_cons t ts).trans hts
      cases hbegins : beginsModule t with
      | true =>
        obtain ⟨name, b, rest, m, ms', hparts, hm, hms, rfl⟩ := (modulesFrom_module hbegins).1 h
        obtain ⟨hname, hports, hparams, hrest⟩ := has_moduleParts hts' hparts
        exact List.forall_mem_cons.2
          ⟨readFrom_toModule hname hports hparams hm, ih (hrest.trans hts') hms⟩
      | false =>
        rw [modulesFrom_skip hbegins] at h
        exact ih hts' h

theorem parse_from {text : String} {ms : List Module} (h : Source.parse text = .ok ms) :
    ∀ m ∈ ms, ReadFrom (strip (bytes text)) m :=
  readFrom_modules (List.suffix_refl _) h

end

/-! ### Reading declarations of a source again -/

section
variable {text : String}

theorem ascii_of_continuesWord {b : UInt8} (h : continuesWord b = true) : b.toNat < 128 := by
  by_contra hbig
  have hloose : isLoose b = true := by
    simp only [isLoose, Bool.or_eq_true, decide_eq_true_eq]
    omega
  rw [(tokenRest_loose hloose).1] at h
  cases h

/-- The first byte of a name. -/
theorem Token.isName_first {b : UInt8} {l : List UInt8} {off : Nat}
    (h : Token.isName ⟨b :: l, off⟩ = true) : b = ascii '\\' ∨ isWord b = true := by
  rw [Token.isName, Bool.and_eq_true] at h
  simp only [Bool.or_eq_true, beq_iff_eq] at h
  simp only [isWord, Bool.or_eq_true, beq_iff_eq]
  rcases h.1 with ((hb | hb) | hb) | hb
  · exact .inr (.inl (.inl (.inl hb)))
  · exact .inl hb
  · exact .inr (.inl (.inl (.inr hb)))
  · exact .inr (.inl (.inr hb))

/-- A word of a text is a text. -/
theorem exists_word {ds : List Char} {p c : List UInt8} {b : UInt8} (hb : isWord b = true)
    (h : encoded ds = p ++ b :: c) :
    ∃ s, bytes s = b :: c.take (tokenRest b c) ∧ isWordText s = true := by
  have hstart : startsWord b = true := by
    simp only [startsWord, hb, Bool.true_or]
  obtain ⟨hquote, hslash⟩ := quotes_of_startsWord hstart
  have htake : c.take (tokenRest b c) = c.takeWhile continuesWord := by
    rw [tokenRest_unquoted hquote, if_neg hslash, if_pos hstart]
    exact (List.prefix_iff_eq_take.1 (List.takeWhile_prefix _)).symm
  have hlt := ascii_of_continuesWord (b := b) (by simp only [continuesWord, hb, Bool.true_or])
  obtain ⟨-, d, es, -, -, hd, hes⟩ := Text.exists_chars hlt h
  have hc := List.takeWhile_append_dropWhile (p := continuesWord) (l := c)
  obtain ⟨fs, -, -, hfs, -⟩ := encoded_split_left
    (fun x hx => ascii_of_continuesWord (List.mem_takeWhile_imp hx)) (hes.trans hc.symm)
  have hs : bytes (String.ofList (d :: fs)) = b :: c.takeWhile continuesWord := by
    rw [Text.bytes_ofList, List.flatMap_cons, hd, ← hfs]
    rfl
  refine ⟨_, by rw [hs, htake], ?_⟩
  simp only [isWordText, hs, hstart, Bool.true_and, List.all_eq_true]
  exact fun x hx => List.mem_takeWhile_imp hx

/-- An escaped identifier of a text is a text: it ends before a blank or with the source. -/
theorem exists_escaped {ds : List Char} {p c : List UInt8}
    (h : encoded ds = p ++ ascii '\\' :: c) :
    ∃ s, bytes s = ascii '\\' :: c.take (tokenRest (ascii '\\') c) ∧ isEscaped s = true := by
  have htake : c.take (tokenRest (ascii '\\') c) = c.takeWhile fun x => !isSpace x := by
    rw [tokenRest_unquoted (by decide), if_pos rfl]
    exact (List.prefix_iff_eq_take.1 (List.takeWhile_prefix _)).symm
  obtain ⟨-, d, es, -, -, hd, hes⟩ := Text.exists_chars (by decide) h
  have hc := List.takeWhile_append_dropWhile (p := fun x => !isSpace x) (l := c)
  have hend : ∃ fs, encoded fs = c.takeWhile fun x => !isSpace x := by
    cases hdrop : c.dropWhile fun x => !isSpace x with
    | nil =>
      rw [hdrop, List.append_nil] at hc
      exact ⟨es, hes.trans hc.symm⟩
    | cons y q =>
      have hy := List.head?_dropWhile_not (fun x => !isSpace x) c
      rw [hdrop] at hy hc
      have hspace : isSpace y = true := by simpa using hy
      obtain ⟨fs, -, -, -, hfs, -, -⟩ :=
        Text.exists_chars (ascii_of_isSpace hspace) (hes.trans hc.symm)
      exact ⟨fs, hfs⟩
  obtain ⟨fs, hfs⟩ := hend
  have hs : bytes (String.ofList (d :: fs)) = ascii '\\' :: c.takeWhile fun x => !isSpace x := by
    rw [Text.bytes_ofList, List.flatMap_cons, hd, ← hfs]
    rfl
  refine ⟨_, by rw [hs, htake], ?_⟩
  rw [isEscaped, hs, Bool.and_eq_true, List.all_eq_true]
  refine ⟨rfl, fun x hx => ?_⟩
  rcases List.mem_cons.1 hx with rfl | hx
  · decide
  · exact List.mem_takeWhile_imp (p := fun x => !isSpace x) hx

/-- A name of a source is a word or an escaped identifier. -/
theorem HasName.isName {name : String} (h : HasName (strip (bytes text)) name) : IsName name := by
  obtain ⟨t, ht, hname, rfl⟩ := h
  obtain ⟨ds, hclean⟩ := exists_clean text
  obtain ⟨before, after, htokens⟩ := List.append_of_mem ht
  rw [hclean] at htokens
  obtain ⟨p, r, hsplit, -, b, c, rfl, -, rfl, -⟩ := exists_before htokens
  have hread {s : String} (hs : bytes s = b :: c.take (tokenRest b c))
      (hshape : isWordText s = true ∨ isEscaped s = true) :
      IsName (Text.ofBytes (b :: c.take (tokenRest b c))) := by
    have hname' : isNameText s = true := by
      rw [isNameText, hs]
      exact hname
    rw [← hs, Text.ofBytes_bytes]
    exact ⟨hname', hshape⟩
  rcases Token.isName_first hname with rfl | hword
  · obtain ⟨s, hs, hescaped⟩ := exists_escaped hsplit
    exact hread hs (.inr hescaped)
  · obtain ⟨s, hs, hword⟩ := exists_word hword hsplit
    exact hread hs (.inl hword)

theorem HasRange.isRange {r : BitRange} (h : HasRange (strip (bytes text)) r)
    (hmsb : isClear r.msb = true) (hlsb : isClear r.lsb = true) : IsRange r := by
  obtain ⟨us, vs, hus, hvs, hupper, hlower, rfl⟩ := h
  obtain ⟨hmsb, hmends⟩ := hus.isPiece hmsb
  obtain ⟨hlsb, hlends⟩ := hvs.isPiece hlsb
  refine ⟨hmsb, hlsb, ?_, ?_⟩
  · rw [← closedBound_endsIn, hmends, closedBound_endsIn, hupper]
  · rw [← closedBound_endsIn, hlends, closedBound_endsIn, hlower]

theorem HasValue.isValue {s : String} (h : HasValue (strip (bytes text)) s)
    (hclear : isClear s = true) : IsValue s := by
  obtain ⟨ts, hcut, hclosed, rfl⟩ := h
  exact hcut.isValue hclosed hclear

end

end TaskLoom.Source
