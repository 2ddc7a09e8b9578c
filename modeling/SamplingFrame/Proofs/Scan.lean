import SamplingFrame.Proofs.Evaluation
import SamplingFrame.Scan

/-!
# What a scan finds

A scan stops after the record with which it has enough matches, or at the end of the records that it
may evaluate, whichever comes first. Only in the second case it says that its limit was reached, and
only if a record was left. What it has evaluated are the records before that point, each once: it
fails if one of them does, and nothing that stands behind them matters.
-/

namespace SamplingFrame

namespace Scan

variable {ρ ε : Type} {wanted : Nat} {bound : Option Nat} {r : ρ} {rs : List ρ} {s : Scan ρ}

/-! ### Steps -/

section Steps

variable {m : Type → Type} [Monad m] {isMatch : ρ → m Bool}

theorem run_nil : run isMatch wanted bound [] = pure ⟨[], 0, false⟩ := rfl

/-- Where nothing is wanted nothing is evaluated. -/
theorem run_zero : run isMatch 0 bound rs = pure ⟨[], 0, false⟩ := by
  cases rs <;> rfl

/-- Where nothing may be evaluated any more, a record that is left is the limit. -/
theorem run_exhausted (hw : wanted ≠ 0) :
    run isMatch wanted (some 0) (r :: rs) = pure ⟨[], 0, true⟩ := by
  rw [run, if_neg hw, if_pos rfl]

theorem run_cons (hw : wanted ≠ 0) (hb : bound ≠ some 0) :
    run isMatch wanted bound (r :: rs) = do
      let hit ← isMatch r
      let rest ← run isMatch (if hit then wanted - 1 else wanted) (bound.map (· - 1)) rs
      return ⟨if hit then r :: rest.hits else rest.hits, rest.scanned + 1, rest.limitReached⟩ := by
  rw [run, if_neg hw, if_neg hb]

end Steps

variable {isMatch : ρ → Except ε Bool}

theorem run_cons_eq_ok_iff (hw : wanted ≠ 0) (hb : bound ≠ some 0) :
    run isMatch wanted bound (r :: rs) = .ok s ↔ ∃ hit rest, isMatch r = .ok hit ∧
      run isMatch (if hit then wanted - 1 else wanted) (bound.map (· - 1)) rs = .ok rest ∧
      ⟨if hit then r :: rest.hits else rest.hits, rest.scanned + 1, rest.limitReached⟩ = s := by
  rw [run_cons hw hb, bind_eq_ok]
  refine exists_congr fun hit ↦ ?_
  rw [bind_eq_ok, ← exists_and_left]
  simp only [pure, Except.pure, Except.ok.injEq]

/-! ### Evaluations -/

/-- Notes a record, and evaluates it then. -/
def noting (isMatch : ρ → Except ε Bool) (r : ρ) : StateT (List ρ) (Except ε) Bool := do
  modify (· ++ [r])
  isMatch r

/-- The records that are evaluated are as many as a scan has counted, from the first one on. -/
theorem run_noting (isMatch : ρ → Except ε Bool) (wanted : Nat) (bound : Option Nat)
    (rs noted : List ρ) :
    (run (noting isMatch) wanted bound rs).run noted =
      (fun s ↦ (s, noted ++ rs.take s.scanned)) <$> run isMatch wanted bound rs := by
  induction rs generalizing wanted bound noted with
  | nil =>
    simp only [run_nil, StateT.run_pure, map_pure, List.take_nil, List.append_nil]
  | cons r rs ih =>
    by_cases hw : wanted = 0
    · subst hw
      simp only [run_zero, StateT.run_pure, map_pure, List.take_zero, List.append_nil]
    by_cases hb : bound = some 0
    · subst hb
      simp only [run_exhausted hw, StateT.run_pure, map_pure, List.take_zero, List.append_nil]
    have hnote : (noting isMatch r).run noted = (fun hit ↦ (hit, noted ++ [r])) <$> isMatch r := by
      simp [noting]
    simp only [run_cons hw hb, StateT.run_bind, hnote]
    cases isMatch r with
    | error e => rfl
    | ok hit =>
      -- The record is noted first, so it stands before those that the rest of the scan evaluates.
      simp only [Functor.map, Except.map, bind, Except.bind, ih]
      cases run isMatch (if hit then wanted - 1 else wanted) (bound.map (· - 1)) rs with
      | error e => rfl
      | ok s =>
        dsimp only
        rw [StateT.run_pure, List.append_assoc, List.singleton_append]
        rfl

/-- What follows the records that are evaluated does not matter, as long as it is as many. -/
theorem run_take_append {others : List ρ} (h : run isMatch wanted bound rs = .ok s)
    (hlength : others.length = rs.length - s.scanned) :
    run isMatch wanted bound (rs.take s.scanned ++ others) = .ok s := by
  induction rs generalizing wanted bound s with
  | nil =>
    cases h
    obtain rfl := List.length_eq_zero_iff.mp hlength
    rfl
  | cons r rs ih =>
    by_cases hw : wanted = 0
    · subst hw
      rw [run_zero] at h
      cases h
      exact run_zero
    by_cases hb : bound = some 0
    · subst hb
      rw [run_exhausted hw] at h
      cases h
      obtain ⟨x, xs, rfl⟩ := List.exists_cons_of_length_eq_add_one hlength
      exact run_exhausted hw
    obtain ⟨hit, rest, hr, hrest, rfl⟩ := (run_cons_eq_ok_iff hw hb).mp h
    refine (run_cons_eq_ok_iff hw hb).mpr ⟨hit, rest, hr, ih hrest ?_, rfl⟩
    rwa [List.length_cons, Nat.add_sub_add_right] at hlength

/-- A scan cannot do without a record that it evaluates. -/
theorem run_take_error {k : Nat} {x : ρ} {e : ε} (h : run isMatch wanted bound rs = .ok s)
    (hk : k < s.scanned) (hx : isMatch x = .error e) (others : List ρ) :
    run isMatch wanted bound (rs.take k ++ x :: others) = .error e := by
  induction rs generalizing wanted bound s k with
  | nil =>
    cases h
    cases hk
  | cons r rs ih =>
    by_cases hw : wanted = 0
    · subst hw
      rw [run_zero] at h
      cases h
      cases hk
    by_cases hb : bound = some 0
    · subst hb
      rw [run_exhausted hw] at h
      cases h
      cases hk
    obtain ⟨hit, rest, hr, hrest, rfl⟩ := (run_cons_eq_ok_iff hw hb).mp h
    cases k with
    | zero =>
      rw [List.take_zero, List.nil_append, run_cons hw hb, hx]
      rfl
    | succ k =>
      rw [List.take_succ_cons, List.cons_append, run_cons hw hb, hr]
      refine bind_eq_error.mpr (.inr ⟨hit, rfl, bind_eq_error.mpr (.inl ?_)⟩)
      exact ih hrest (Nat.lt_of_succ_lt_succ hk)

/-! ### Matches -/

/-- What a scan has to find, where `hit` says of each record whether it matches, `within` are the
records that it may evaluate, and `left` tells whether there are others. -/
structure Finds (hit : ρ → Bool) (wanted : Nat) (within : List ρ) (left : Prop) (s : Scan ρ) :
    Prop where
  nothing : wanted = 0 → s = ⟨[], 0, false⟩
  /-- With enough matches a scan stops at the last one that is wanted, even if that is the last
  record that it may evaluate. -/
  enough : 0 < wanted → wanted ≤ (within.filter hit).length →
    s.hits = (within.filter hit).take wanted ∧ s.limitReached = false ∧
      ∃ before r after, within = before ++ r :: after ∧ hit r = true ∧
        (before.filter hit).length + 1 = wanted ∧ s.scanned = before.length + 1
  /-- With fewer matches a scan goes on to the end of what it may evaluate. -/
  tooFew : (within.filter hit).length < wanted →
    s.hits = within.filter hit ∧ s.scanned = within.length ∧ (s.limitReached = true ↔ left)

variable {hit : ρ → Bool} {within : List ρ} {left : Prop}

theorem finds_nil (hleft : ¬ left) : Finds hit wanted [] left ⟨[], 0, false⟩ := by
  refine ⟨fun _ ↦ rfl, fun hpos hle ↦ ?_, fun _ ↦ ⟨rfl, rfl, by simp [hleft]⟩⟩
  exact absurd hle (Nat.not_le.mpr hpos)

theorem finds_of_nothing_wanted : Finds hit 0 within left ⟨[], 0, false⟩ := by
  constructor <;> simp

theorem finds_of_exhausted (hw : wanted ≠ 0) (hleft : left) :
    Finds hit wanted [] left ⟨[], 0, true⟩ := by
  refine ⟨fun h0 ↦ absurd h0 hw, fun hpos hle ↦ ?_, fun _ ↦ ⟨rfl, rfl, by simp [hleft]⟩⟩
  exact absurd hle (Nat.not_le.mpr hpos)

/-- A record that matches is the last one that is wanted, or the first of those that are. -/
theorem Finds.cons_of_hit (hr : hit r = true) (hw : wanted ≠ 0)
    (h : Finds hit (wanted - 1) within left s) :
    Finds hit wanted (r :: within) left ⟨r :: s.hits, s.scanned + 1, s.limitReached⟩ := by
  obtain ⟨w, rfl⟩ := Nat.exists_eq_succ_of_ne_zero hw
  rw [Nat.succ_sub_one] at h
  refine ⟨nofun, fun _ hle ↦ ?_, fun hlt ↦ ?_⟩
  · rw [List.filter_cons_of_pos hr] at hle ⊢
    rcases Nat.eq_zero_or_pos w with rfl | hpos
    · obtain rfl := h.nothing rfl
      exact ⟨rfl, rfl, [], r, _, rfl, hr, rfl, rfl⟩
    · obtain ⟨hhits, hlimit, before, x, after, rfl, hx, hcount, hscanned⟩ :=
        h.enough hpos (Nat.le_of_succ_le_succ hle)
      refine ⟨congrArg (r :: ·) hhits, hlimit, r :: before, x, after, rfl, hx, ?_, ?_⟩
      · rw [List.filter_cons_of_pos hr, List.length_cons, hcount]
      · rw [hscanned, List.length_cons]
  · rw [List.filter_cons_of_pos hr] at hlt ⊢
    obtain ⟨hhits, hscanned, hlimit⟩ := h.tooFew (Nat.lt_of_succ_lt_succ hlt)
    refine ⟨congrArg (r :: ·) hhits, ?_, hlimit⟩
    rw [List.length_cons, hscanned]

/-- A record that does not match is only counted. -/
theorem Finds.cons_of_miss (hr : hit r = false) (hw : wanted ≠ 0)
    (h : Finds hit wanted within left s) :
    Finds hit wanted (r :: within) left ⟨s.hits, s.scanned + 1, s.limitReached⟩ := by
  have hskip : ∀ us, (r :: us).filter hit = us.filter hit :=
    fun us ↦ List.filter_cons_of_neg (by simp [hr])
  refine ⟨fun h0 ↦ absurd h0 hw, fun hpos hle ↦ ?_, fun hlt ↦ ?_⟩
  · rw [hskip] at hle ⊢
    obtain ⟨hhits, hlimit, before, x, after, rfl, hx, hcount, hscanned⟩ := h.enough hpos hle
    refine ⟨hhits, hlimit, r :: before, x, after, rfl, hx, ?_, ?_⟩
    · rw [hskip, hcount]
    · rw [hscanned, List.length_cons]
  · rw [hskip] at hlt ⊢
    obtain ⟨hhits, hscanned, hlimit⟩ := h.tooFew hlt
    refine ⟨hhits, ?_, hlimit⟩
    rw [List.length_cons, hscanned]

/-- The records that a scan may evaluate. -/
def window (bound : Option Nat) (rs : List ρ) : List ρ := bound.elim rs fun n ↦ rs.take n

/-- Whether there are more records than a scan may evaluate. -/
def Exceeds (bound : Option Nat) (rs : List ρ) : Prop := ∃ n, bound = some n ∧ n < rs.length

theorem not_exceeds_nil : ¬ Exceeds bound ([] : List ρ) := nofun

theorem window_nil : window bound ([] : List ρ) = [] := by
  cases bound with
  | none => rfl
  | some n => exact List.take_nil

theorem window_cons (hb : bound ≠ some 0) :
    window bound (r :: rs) = r :: window (bound.map (· - 1)) rs := by
  cases bound with
  | none => rfl
  | some n =>
    cases n with
    | zero => exact absurd rfl hb
    | succ n => rfl

theorem exceeds_cons (hb : bound ≠ some 0) :
    Exceeds bound (r :: rs) ↔ Exceeds (bound.map (· - 1)) rs := by
  cases bound with
  | none => simp [Exceeds]
  | some n =>
    have hn : n ≠ 0 := fun h ↦ hb (congrArg some h)
    simp only [Exceeds, Option.some.injEq, exists_eq_left', Option.map_some, List.length_cons]
    omega

/-- Where no evaluation fails, a scan finds what it has to. -/
theorem exists_finds (h : ∀ r ∈ rs, isMatch r = .ok (hit r)) (wanted : Nat) (bound : Option Nat) :
    ∃ s, run isMatch wanted bound rs = .ok s ∧
      Finds hit wanted (window bound rs) (Exceeds bound rs) s := by
  induction rs generalizing wanted bound with
  | nil =>
    rw [window_nil]
    exact ⟨_, rfl, finds_nil not_exceeds_nil⟩
  | cons r rs ih =>
    by_cases hw : wanted = 0
    · subst hw
      exact ⟨_, run_zero, finds_of_nothing_wanted⟩
    by_cases hb : bound = some 0
    · subst hb
      exact ⟨_, run_exhausted hw, finds_of_exhausted hw ⟨0, rfl, Nat.succ_pos _⟩⟩
    obtain ⟨s, hs, hfinds⟩ := ih (fun x hx ↦ h x (List.mem_cons_of_mem r hx))
      (if hit r then wanted - 1 else wanted) (bound.map (· - 1))
    have hrun := (run_cons_eq_ok_iff hw hb).mpr ⟨hit r, s, h r List.mem_cons_self, hs, rfl⟩
    refine ⟨_, hrun, ?_⟩
    rw [window_cons hb, exceeds_cons hb]
    cases hr : hit r with
    | true =>
      rw [hr, if_pos rfl] at hfinds
      exact hfinds.cons_of_hit hr hw
    | false =>
      rw [hr, if_neg Bool.false_ne_true] at hfinds
      exact hfinds.cons_of_miss hr hw

/-- The limit of a scan in its own terms. -/
theorem window_boundOf (limit : Nat) (rs : List ρ) :
    window (boundOf limit) rs = if limit = 0 then rs else rs.take limit := by
  rw [boundOf]
  split <;> rfl

theorem exceeds_boundOf (limit : Nat) (rs : List ρ) :
    Exceeds (boundOf limit) rs ↔ limit ≠ 0 ∧ limit < rs.length := by
  rw [boundOf]
  split <;> simp [Exceeds, *]

end Scan

/-! ### Rows -/

/-- A row shows a record in given columns: each of them once, with the text of the record's value,
which is empty where there is none. -/
structure Row.Shows (row : Row) (r : Record) (columns : List Field) : Prop where
  nodup : (row.map (·.1)).Nodup
  mem_iff : ∀ f, f ∈ row.map (·.1) ↔ f ∈ columns
  text : ∀ f text, (f, text) ∈ row → text = (r f).elim "" Scalar.render

theorem Record.row_shows (r : Record) (columns : List Field) :
    (r.row columns).Shows r columns := by
  have hkeys : (r.row columns).map (·.1) = Field.inOrder columns := by
    simp [row, Function.comp_def]
  refine ⟨?_, fun f ↦ ?_, fun f text h ↦ ?_⟩
  · rw [hkeys]
    exact List.Pairwise.filter _ (by decide)
  · rw [hkeys, Field.mem_inOrder]
  · obtain ⟨g, -, hg⟩ := List.mem_map.mp h
    cases hg
    rfl

/-! ### Previews -/

/-- Whether a record matches. -/
def Predicate.selects (p : Predicate Test) (r : Record) : Bool := (p.matches? r).toOption.getD false

theorem Predicate.matches?_eq_selects {p : Predicate Test} {r : Record}
    (h : ∃ b, p.matches? r = .ok b) : p.matches? r = .ok (p.selects r) := by
  obtain ⟨b, hb⟩ := h
  rw [selects, hb]
  rfl

namespace CompiledFrame

/-- What a preview evaluates: the records that it counts, and no others. -/
structure EvaluatesFirst (compiled : CompiledFrame) (records : List Record) (wanted limit : Nat)
    (p : Preview) : Prop where
  /-- Where each record is noted when it is evaluated, these are noted once each and in order. -/
  noted : (compiled.previewBy (Scan.noting compiled.predicate.matches?) records wanted limit).run
    [] = .ok (p, records.take p.scanned)
  /-- Where another record stands in the place of one of them, and its evaluation fails, so does
  the preview. -/
  needed : ∀ k < p.scanned, ∀ r violation others,
    compiled.predicate.matches? r = .error violation →
      compiled.preview (records.take k ++ r :: others) wanted limit = .error violation
  /-- Any others may follow them, even if the evaluation of these would fail. -/
  unneeded : ∀ others : List Record, others.length = records.length - p.scanned →
    compiled.preview (records.take p.scanned ++ others) wanted limit = .ok p

variable {compiled : CompiledFrame} {records : List Record} {wanted limit : Nat}

/-- A preview shows what a scan has found. -/
def previewOf (compiled : CompiledFrame) (s : Scan Record) : Preview where
  frameId := compiled.frame.id
  frameName := compiled.frame.name
  rows := s.hits.map (·.row compiled.frame.columns)
  scanned := s.scanned
  limitReached := s.limitReached

theorem preview_eq_map : compiled.preview records wanted limit =
    compiled.previewOf <$>
      Scan.run compiled.predicate.matches? wanted (Scan.boundOf limit) records := by
  rw [map_eq_pure_bind]
  rfl

theorem preview_eq_ok {s : Scan Record}
    (h : Scan.run compiled.predicate.matches? wanted (Scan.boundOf limit) records = .ok s) :
    compiled.preview records wanted limit = .ok (compiled.previewOf s) := by
  rw [preview_eq_map, h]
  rfl

theorem evaluatesFirst_of_run {s : Scan Record}
    (h : Scan.run compiled.predicate.matches? wanted (Scan.boundOf limit) records = .ok s) :
    compiled.EvaluatesFirst records wanted limit (compiled.previewOf s) := by
  refine ⟨?_, fun k hk r violation others hr ↦ ?_, fun others hlength ↦ ?_⟩
  · rw [previewBy, StateT.run_bind, Scan.run_noting, h]
    rfl
  · rw [preview_eq_map, Scan.run_take_error h hk hr]
    rfl
  · exact preview_eq_ok (Scan.run_take_append h hlength)

/-- Where a predicate has a value for every record, a preview shows what a scan of the records has
to find. It may evaluate as many of them as the limit says, or all of them if the limit is zero,
and it evaluates those that it counts. -/
theorem exists_preview {compiled : CompiledFrame} {records : List Record}
    (h : ∀ r ∈ records, ∃ b, compiled.predicate.matches? r = .ok b) (wanted limit : Nat) :
    ∃ s p, Scan.Finds compiled.predicate.selects wanted
        (if limit = 0 then records else records.take limit)
        (limit ≠ 0 ∧ limit < records.length) s ∧
      compiled.preview records wanted limit = .ok p ∧
      p.rows = s.hits.map (·.row compiled.frame.columns) ∧
      (∀ r ∈ s.hits, (r.row compiled.frame.columns).Shows r compiled.frame.columns) ∧
      p.scanned = s.scanned ∧ p.matched = s.hits.length ∧ p.matched = p.rows.length ∧
      p.limitReached = s.limitReached ∧ compiled.EvaluatesFirst records wanted limit p := by
  have hvalues : ∀ r ∈ records,
      compiled.predicate.matches? r = .ok (compiled.predicate.selects r) :=
    fun r hr ↦ Predicate.matches?_eq_selects (h r hr)
  obtain ⟨s, hs, hfinds⟩ := Scan.exists_finds hvalues wanted (Scan.boundOf limit)
  rw [Scan.window_boundOf, Scan.exceeds_boundOf] at hfinds
  refine ⟨s, compiled.previewOf s, hfinds, preview_eq_ok hs, rfl, fun r _ ↦ r.row_shows _, rfl, ?_,
    rfl, rfl, evaluatesFirst_of_run hs⟩
  exact List.length_map _

/-- A frame that selects units of which the year of the count of employees is one. -/
def counted : Frame where
  id := "1"
  name := "counted"
  selection := .ofRules [.first (.isOne .employeesYear)]
  columns := [.employeesYear, .name, .employeesYear]
  createdAt := none

/-- A unit that does not match, and twice one that does. -/
def Record.triple : List Record :=
  [StatisticalUnit.unknown.record, StatisticalUnit.unstaffed.record,
    StatisticalUnit.unstaffed.record]

/-- Two of three records may be evaluated. If one match is wanted, it is the second record, and the
limit does not count as reached. If two are wanted, the limit cuts the second one off. -/
theorem exists_preview_at_limit :
    ∃ compiled, counted.compile 1 = .ok compiled ∧
      (∀ r ∈ Record.triple, ∃ b, compiled.predicate.matches? r = .ok b) ∧
      (∃ p, compiled.preview Record.triple 1 2 = .ok p ∧
        p.rows = [[(.employeesYear, "1"), (.name, "")]] ∧ p.scanned = 2 ∧ p.limitReached = false ∧
        compiled.EvaluatesFirst Record.triple 1 2 p) ∧
      ∃ s p, Scan.Finds compiled.predicate.selects 2 (Record.triple.take 2)
          (2 ≠ 0 ∧ 2 < Record.triple.length) s ∧
        compiled.preview Record.triple 2 2 = .ok p ∧
        p.rows = [[(.employeesYear, "1"), (.name, "")]] ∧ p.scanned = 2 ∧
        p.limitReached = true := by
  let compiled : CompiledFrame :=
    ⟨counted, .test ⟨.employeesYear, false, .compares .equal (.integer 1)⟩, [.employeesYear], 1⟩
  have hvalues : ∀ r ∈ Record.triple, ∃ b, compiled.predicate.matches? r = .ok b := by
    intro r hr
    simp only [Record.triple, List.mem_cons, List.not_mem_nil, or_false] at hr
    rcases hr with rfl | rfl | rfl <;> exact ⟨_, rfl⟩
  refine ⟨compiled, rfl, hvalues, ?_, ?_⟩
  · obtain ⟨s, p, -, hp, -, -, -, -, -, -, hevaluates⟩ := exists_preview hvalues 1 2
    refine ⟨p, hp, ?_⟩
    obtain rfl := Except.ok.inj hp
    exact ⟨rfl, rfl, rfl, hevaluates⟩
  · obtain ⟨s, p, hfinds, hp, -⟩ := exists_preview hvalues 2 2
    refine ⟨s, p, hfinds, hp, ?_⟩
    obtain rfl := Except.ok.inj hp
    exact ⟨rfl, rfl, rfl⟩

end CompiledFrame

end SamplingFrame
