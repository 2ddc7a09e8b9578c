import Mathlib.Data.List.Forall2
import Mathlib.Data.List.Induction
import SamplingFrame.Proofs.Evaluation

/-!
# Sequences of terms

Terms that are joined from left to right without precedence. The value of a sequence is the left
fold of the values of its terms, and a term is evaluated exactly where the value reached before it
leaves the result open.
-/

namespace SamplingFrame

theorem Connective.needsSecond_iff {c : Connective} {a : Bool} :
    c.needsSecond a = true ↔ c.isTight = a := by
  rw [needsSecond, beq_iff_eq, eq_comm]

namespace Term

variable {α β : Type}

/-- The same term about another node. -/
def map (f : α → β) (t : Term α) : Term β := ⟨f t.node, t.connective⟩

/-- The first term has no connective, and every later one has one. -/
def Sequenced : List (Term α) → Prop
  | [] => True
  | t :: ts => t.connective = none ∧ ∀ u ∈ ts, u.connective.isSome = true

/-- One step of a left fold; a term without connective starts it afresh. -/
def combineNext (combine : Connective → α → α → α) (before : α) (t : Term α) : α :=
  match t.connective with
  | none => t.node
  | some c => combine c before t.node

/-- Gives every node its image, up to the first that has none. -/
def traverse {m : Type → Type} [Monad m] (f : α → m β) : List (Term α) → m (List (Term β))
  | [] => return []
  | t :: ts => do
    let x ← f t.node
    let us ← traverse f ts
    return ⟨x, t.connective⟩ :: us

/-- The left fold of a sequence. -/
def foldLeft (combine : Connective → α → α → α) (start : α) (ts : List (Term α)) : α :=
  ts.foldl (combineNext combine) start

/-- The value of a sequence of values; without terms it is true. -/
def fold (ts : List (Term Bool)) : Bool := foldLeft Connective.apply true ts

/-- The predicate of a sequence of predicates; without terms it is true of everything. -/
def join (ts : List (Term (Predicate α))) : Predicate α := foldLeft .join .always ts

/-- The numbers of terms, from zero, in the place of their nodes. -/
def numbered (ts : List (Term α)) : List (Term Nat) := ts.mapIdx fun i t ↦ ⟨i, t.connective⟩

/-- The predicate of a sequence in which the term of number `i` is the test `i`. -/
def outline (ts : List (Term α)) : Predicate Nat := join ((numbered ts).map (map .test))

/-- The sequence of nodes that are joined by connectives, one between any two neighbours. -/
def assemble : List α → List Connective → List (Term α)
  | [], _ => []
  | x :: xs, connectives => first x :: (connectives.zip xs).map fun y ↦ next y.1 y.2

/-- The value that is reached before the term of number `i`, given the values of terms. -/
def valueBefore (value : Nat → Bool) (ts : List (Term α)) (i : Nat) : Bool :=
  fold (((numbered ts).take i).map (map value))

/-! ### Images of the nodes -/

section Traverse

variable {ε : Type} {f : α → Except ε β}

/-- A traversal succeeds where every node has an image, and keeps the connectives. -/
theorem traverse_eq_ok_iff {ts : List (Term α)} {us : List (Term β)} :
    traverse f ts = .ok us ↔
      List.Forall₂ (fun t u ↦ f t.node = .ok u.node ∧ u.connective = t.connective) ts us := by
  induction ts generalizing us with
  | nil =>
    rw [List.forall₂_nil_left_iff, traverse]
    constructor
    · intro h
      cases h
      rfl
    · rintro rfl
      rfl
  | cons t ts ih =>
    rw [List.forall₂_cons_left_iff]
    constructor
    · intro h
      obtain ⟨x, hx, h⟩ := bind_eq_ok.mp h
      obtain ⟨vs, hvs, h⟩ := bind_eq_ok.mp h
      cases h
      exact ⟨_, _, ⟨hx, rfl⟩, ih.mp hvs, rfl⟩
    · rintro ⟨⟨x, c⟩, vs, ⟨hx, hc⟩, hvs, rfl⟩
      obtain rfl : c = t.connective := hc
      exact bind_eq_ok.mpr ⟨x, hx, bind_eq_ok.mpr ⟨vs, ih.mpr hvs, rfl⟩⟩

theorem traverse_append (ts us : List (Term α)) :
    traverse f (ts ++ us) = do
      let xs ← traverse f ts
      let ys ← traverse f us
      return xs ++ ys := by
  induction ts with
  | nil => cases h : traverse f us <;> simp [traverse, h, bind, Except.bind, pure, Except.pure]
  | cons t ts ih =>
    cases hx : f t.node <;> cases hts : traverse f ts <;> cases hus : traverse f us <;>
      simp [traverse, ih, hx, hts, hus, bind, Except.bind, pure, Except.pure]

theorem traverse_map {γ : Type} (g : γ → α) (ts : List (Term γ)) :
    traverse f (ts.map (map g)) = traverse (f ∘ g) ts := by
  induction ts with
  | nil => rfl
  | cons t ts ih => rw [List.map_cons, traverse, traverse, ih]; rfl

theorem traverse_fmap {γ : Type} (g : β → γ) (ts : List (Term α)) :
    traverse (fun x ↦ g <$> f x) ts = List.map (map g) <$> traverse f ts := by
  induction ts with
  | nil => rfl
  | cons t ts ih =>
    rw [traverse, traverse, ih]
    cases f t.node with
    | error e => rfl
    | ok x => cases traverse f ts <;> rfl

theorem traverse_append_eq_ok_iff {ts us : List (Term α)} {vs : List (Term β)} :
    traverse f (ts ++ us) = .ok vs ↔
      ∃ xs ys, traverse f ts = .ok xs ∧ traverse f us = .ok ys ∧ vs = xs ++ ys := by
  rw [traverse_append]
  constructor
  · intro h
    obtain ⟨xs, hxs, h⟩ := bind_eq_ok.mp h
    obtain ⟨ys, hys, h⟩ := bind_eq_ok.mp h
    cases h
    exact ⟨xs, ys, hxs, hys, rfl⟩
  · rintro ⟨xs, ys, hxs, hys, rfl⟩
    rw [hxs, hys]
    rfl

theorem traverse_congr {g : α → Except ε β} {ts : List (Term α)}
    (h : ∀ t ∈ ts, f t.node = g t.node) : traverse f ts = traverse g ts := by
  induction ts with
  | nil => rfl
  | cons t ts ih =>
    rw [traverse, traverse, h t List.mem_cons_self, ih fun u hu ↦ h u (List.mem_cons_of_mem t hu)]

theorem connectives_of_traverse {ts : List (Term α)} {us : List (Term β)}
    (h : traverse f ts = .ok us) : us.map (·.connective) = ts.map (·.connective) := by
  rw [traverse_eq_ok_iff] at h
  induction h with
  | nil => rfl
  | cons hu _ ih => simp [hu.2, ih]

/-- Values of the images are values of the nodes. -/
theorem traverse_values {γ : Type} {value? : α → Option γ} {value : β → γ} {ts : List (Term α)}
    {us : List (Term β)} (h : traverse f ts = .ok us)
    (hv : ∀ t ∈ ts, ∀ u ∈ us, f t.node = .ok u.node → value? t.node = some (value u.node)) :
    traverse value? ts = some (us.map (map value)) := by
  rw [traverse_eq_ok_iff] at h
  induction h with
  | nil => rfl
  | @cons t u ts us hu _ ih =>
    have ih := ih fun t ht u hu ↦ hv t (List.mem_cons_of_mem _ ht) u (List.mem_cons_of_mem _ hu)
    rw [traverse, hv t List.mem_cons_self u List.mem_cons_self hu.1, ih, ← hu.2]
    rfl

/-- What relates every node to its image relates all nodes to all images. -/
theorem forall₂_of_traverse {γ δ : Type} {R : γ → δ → Prop} {g : α → List γ} {k : β → List δ}
    {ts : List (Term α)} {us : List (Term β)} (h : traverse f ts = .ok us)
    (hR : ∀ t ∈ ts, ∀ {x}, f t.node = .ok x → List.Forall₂ R (g t.node) (k x)) :
    List.Forall₂ R (ts.flatMap (g ·.node)) (us.flatMap (k ·.node)) := by
  rw [traverse_eq_ok_iff] at h
  induction h with
  | nil => exact .nil
  | cons hu _ ih =>
    rw [List.flatMap_cons, List.flatMap_cons]
    refine List.rel_append (hR _ List.mem_cons_self hu.1) (ih fun t ht ↦ ?_)
    exact hR t (List.mem_cons_of_mem _ ht)

end Traverse

/-! ### Left folds -/

theorem foldLeft_concat (combine : Connective → α → α → α) (start : α) (ts : List (Term α))
    (t : Term α) :
    foldLeft combine start (ts ++ [t]) = combineNext combine (foldLeft combine start ts) t := by
  simp [foldLeft]

/-- A map that respects how two operands are combined commutes with left folds. -/
theorem foldLeft_hom {combine : Connective → α → α → α} {combine' : Connective → β → β → β}
    (f : α → β) (h : ∀ c a b, f (combine c a b) = combine' c (f a) (f b)) (start : α)
    (ts : List (Term α)) :
    f (foldLeft combine start ts) = foldLeft combine' (f start) (ts.map (map f)) := by
  rw [foldLeft, foldLeft, List.foldl_map]
  refine (List.foldl_hom f fun a t ↦ ?_).symm
  cases hc : t.connective with
  | none => simp [combineNext, map, hc]
  | some c => simp [combineNext, map, hc, h]

/-- The value of a joined predicate is the left fold of the values of its operands. -/
theorem value_join (value : α → Bool) (ts : List (Term (Predicate α))) :
    (join ts).value value = fold (ts.map (map (·.value value))) :=
  foldLeft_hom (Predicate.value value) (fun _ _ _ ↦ rfl) .always ts

/-- Parts are put into a joined predicate operand by operand. -/
theorem bind_join (part : α → Predicate β) (ts : List (Term (Predicate α))) :
    (join ts).bind part = join (ts.map (map (·.bind part))) :=
  foldLeft_hom (Predicate.bind part) (fun _ _ _ ↦ rfl) .always ts

/-! ### The order of evaluation -/

theorem sequenced_concat {ts : List (Term α)} {t : Term α} :
    Sequenced (ts ++ [t]) ↔ Sequenced ts ∧ (t.connective = none ↔ ts = []) := by
  cases ts with
  | nil => simp [Sequenced]
  | cons u us =>
    cases hc : t.connective <;> simp [Sequenced, hc, or_imp, forall_and]

theorem sequenced_of_append {us vs : List (Term α)} (h : Sequenced (us ++ vs)) : Sequenced us := by
  cases us with
  | nil => trivial
  | cons u us => exact ⟨h.1, fun v hv ↦ h.2 v (List.mem_append_left _ hv)⟩

/-- In a sequence, exactly the first term has no connective. -/
theorem connective_eq_none_iff {before after : List (Term α)} {t : Term α}
    (h : Sequenced (before ++ t :: after)) : t.connective = none ↔ before = [] := by
  rw [List.append_cons] at h
  exact (sequenced_concat.mp (sequenced_of_append h)).2

/-- Being in sequence depends on the connectives alone. -/
theorem sequenced_of_connectives {ts : List (Term α)} {us : List (Term β)}
    (hc : us.map (·.connective) = ts.map (·.connective)) (h : Sequenced ts) : Sequenced us := by
  cases us with
  | nil => trivial
  | cons u us =>
    cases ts with
    | nil => cases hc
    | cons t ts =>
      obtain ⟨hu, hus⟩ := List.cons.inj hc
      refine ⟨hu.trans h.1, fun v hv ↦ ?_⟩
      have hmem : v.connective ∈ us.map (·.connective) := List.mem_map_of_mem hv
      rw [hus] at hmem
      obtain ⟨w, hw, hwv⟩ := List.mem_map.mp hmem
      rw [← hwv]
      exact h.2 w hw

theorem sequenced_map {f : α → β} {ts : List (Term α)} (h : Sequenced ts) :
    Sequenced (ts.map (map f)) :=
  sequenced_of_connectives (by simp [map]) h

theorem connectives_numbered (ts : List (Term α)) :
    (numbered ts).map (·.connective) = ts.map (·.connective) := by
  apply List.ext_getElem
  · simp [numbered]
  · intro i _ _
    simp [numbered]

theorem sequenced_numbered {ts : List (Term α)} (h : Sequenced ts) : Sequenced (numbered ts) :=
  sequenced_of_connectives (connectives_numbered ts) h

/-- Taking a sequence apart and assembling it again gives it back. -/
theorem assemble_of_sequenced {ts : List (Term α)} (h : Sequenced ts) :
    assemble (ts.map (·.node)) (ts.filterMap (·.connective)) = ts := by
  cases ts with
  | nil => rfl
  | cons t ts =>
    obtain ⟨x, c⟩ := t
    obtain ⟨rfl, hs⟩ := h
    have htail : ((ts.filterMap (·.connective)).zip (ts.map (·.node))).map
        (fun y ↦ next y.1 y.2) = ts := by
      clear x
      induction ts with
      | nil => rfl
      | cons u us ih =>
        obtain ⟨x, c⟩ := u
        obtain ⟨c, rfl⟩ := Option.isSome_iff_exists.mp (hs _ List.mem_cons_self)
        simpa [next] using ih fun v hv ↦ hs v (List.mem_cons_of_mem _ hv)
    exact congrArg (first x :: ·) htail

theorem join_concat_none {ts : List (Term (Predicate α))} {t : Term (Predicate α)}
    (h : t.connective = none) : join (ts ++ [t]) = t.node := by
  simp [join, foldLeft_concat, combineNext, h]

theorem join_concat_some {ts : List (Term (Predicate α))} {t : Term (Predicate α)}
    {c : Connective} (h : t.connective = some c) :
    join (ts ++ [t]) = .join c (join ts) t.node := by
  simp [join, foldLeft_concat, combineNext, h]

/-- A sequence has the tests of all its terms, in order. -/
theorem tests_join {ts : List (Term (Predicate α))} (h : Sequenced ts) :
    (join ts).tests = ts.flatMap (·.node.tests) := by
  induction ts using List.reverseRecOn with
  | nil => rfl
  | append_singleton ts t ih =>
    obtain ⟨hs, hc⟩ := sequenced_concat.mp h
    cases ht : t.connective with
    | none =>
      rw [join_concat_none ht, hc.mp ht]
      simp
    | some c => simp [join_concat_some ht, Predicate.tests, ih hs]

/-- A place in a longer list is a place in the shorter one or the last place. -/
private theorem exists_place_concat {xs : List α} {x : α} {P : List α → α → Prop} :
    (∃ before y after, xs ++ [x] = before ++ y :: after ∧ P before y) ↔
      (∃ before y after, xs = before ++ y :: after ∧ P before y) ∨ P xs x := by
  constructor
  · rintro ⟨before, y, after, h, hP⟩
    rcases List.eq_nil_or_concat after with rfl | ⟨rest, z, rfl⟩
    · obtain ⟨rfl, hy⟩ := List.append_inj' h rfl
      cases hy
      exact .inr hP
    · rw [List.concat_eq_append, ← List.cons_append, ← List.append_assoc] at h
      exact .inl ⟨before, y, rest, (List.append_inj' h rfl).1, hP⟩
  · rintro (⟨before, y, after, rfl, hP⟩ | hP)
    · exact ⟨before, y, after ++ [x], by simp, hP⟩
    · exact ⟨xs, x, [], rfl, hP⟩

theorem mem_asked_concat {value : α → Bool} {ts : List (Term (Predicate α))}
    {t : Term (Predicate α)} (h : Sequenced (ts ++ [t])) {x : α} :
    x ∈ (join (ts ++ [t])).asked value ↔ x ∈ (join ts).asked value ∨ x ∈ t.node.asked value ∧
      ∀ c, t.connective = some c → c.needsSecond ((join ts).value value) = true := by
  obtain ⟨-, hc⟩ := sequenced_concat.mp h
  cases ht : t.connective with
  | none =>
    rw [join_concat_none ht, hc.mp ht]
    simp [join, foldLeft, Predicate.asked]
  | some c =>
    rw [join_concat_some ht, Predicate.asked]
    split
    · next hn => simp [hn]
    · next hn => simp [hn]

/-- What is asked of a sequence is what is asked of those terms before which the value reached
leaves the result open. -/
theorem mem_asked_join {value : α → Bool} {ts : List (Term (Predicate α))} (h : Sequenced ts)
    {x : α} :
    x ∈ (join ts).asked value ↔
      ∃ before t after, ts = before ++ t :: after ∧ x ∈ t.node.asked value ∧
        ∀ c, t.connective = some c → c.needsSecond ((join before).value value) = true := by
  induction ts using List.reverseRecOn with
  | nil => simp [join, foldLeft, Predicate.asked]
  | append_singleton ts t ih =>
    rw [mem_asked_concat h, ih (sequenced_concat.mp h).1]
    exact exists_place_concat.symm

theorem mem_asked_join_map {value : β → Bool} {f : α → Predicate β} {ts : List (Term α)}
    (h : Sequenced ts) {x : β} :
    x ∈ (join (ts.map (map f))).asked value ↔
      ∃ before t after, ts = before ++ t :: after ∧ x ∈ (f t.node).asked value ∧
        ∀ c, t.connective = some c →
          c.needsSecond (fold (before.map (map fun y ↦ (f y).value value))) = true := by
  have hfold (us : List (Term α)) : (join (us.map (map f))).value value =
      fold (us.map (map fun y ↦ (f y).value value)) := by
    rw [value_join, List.map_map]
    rfl
  rw [mem_asked_join (sequenced_map h)]
  constructor
  · rintro ⟨before', t', after', hts, hx, hn⟩
    obtain ⟨before, rest, rfl, rfl, hrest⟩ := List.map_eq_append_iff.mp hts
    obtain ⟨t, after, rfl, rfl, rfl⟩ := List.map_eq_cons_iff.mp hrest
    rw [hfold] at hn
    exact ⟨before, t, after, rfl, hx, hn⟩
  · rintro ⟨before, t, after, rfl, hx, hn⟩
    rw [← hfold] at hn
    exact ⟨before.map (map f), map f t, after.map (map f), by simp, hx, hn⟩

/-! ### Outlines -/

theorem nodes_numbered (ts : List (Term α)) :
    (numbered ts).map (·.node) = List.range ts.length := by
  apply List.ext_getElem
  · simp [numbered]
  · intro i _ _
    simp [numbered]

/-- The outline of a sequence has one test for each term. -/
theorem tests_outline {ts : List (Term α)} (h : Sequenced ts) :
    (outline ts).tests = List.range ts.length := by
  rw [outline, tests_join (sequenced_map (sequenced_numbered h)), List.flatMap_map,
    ← nodes_numbered, List.map_eq_flatMap]
  rfl

/-- The images of the nodes of a sequence, by the numbers of the terms. -/
theorem exists_parts {ε : Type} {f : α → Except ε (Predicate β)} {ts : List (Term α)}
    {qs : List (Term (Predicate β))} (h : traverse f ts = .ok qs) :
    ∃ part : Nat → Predicate β, (∀ i t, ts[i]? = some t → f t.node = .ok (part i)) ∧
      (numbered ts).map (map part) = qs := by
  obtain ⟨hlength, hget⟩ := List.forall₂_iff_get.mp (traverse_eq_ok_iff.mp h)
  refine ⟨fun i ↦ (qs[i]?.map (·.node)).getD .always, fun i t ht ↦ ?_, ?_⟩
  · obtain ⟨hi, rfl⟩ := List.getElem?_eq_some_iff.mp ht
    have hq : i < qs.length := hlength ▸ hi
    simpa [hq] using (hget i hi hq).1
  · apply List.ext_getElem
    · simpa [numbered] using hlength
    · intro i hi hq
      have ht : i < ts.length := hlength ▸ hq
      have hc : qs[i].connective = ts[i].connective := (hget i ht hq).2
      simp [numbered, map, hq, ← hc]

/-- The predicate of a sequence is its outline with a part for each term. -/
theorem bind_outline (part : Nat → Predicate β) (ts : List (Term α)) :
    (outline ts).bind part = join ((numbered ts).map (map part)) := by
  rw [outline, bind_join, List.map_map]
  rfl

/-- The value of an outline is the one that is reached after the last term. -/
theorem value_outline (value : Nat → Bool) (ts : List (Term α)) :
    (outline ts).value value = valueBefore value ts ts.length := by
  have hall : (numbered ts).take ts.length = numbered ts :=
    List.take_of_length_le (by simp [numbered])
  rw [outline, value_join, valueBefore, hall, List.map_map]
  rfl

theorem getElem?_numbered (ts : List (Term α)) (i : Nat) :
    (numbered ts)[i]? = ts[i]?.map fun t ↦ ⟨i, t.connective⟩ := by
  simp [numbered]

/-- Each term is combined with the value that is reached before it. -/
theorem valueBefore_succ (value : Nat → Bool) {ts : List (Term α)} {i : Nat} {t : Term α}
    (ht : ts[i]? = some t) :
    valueBefore value ts (i + 1) =
      combineNext Connective.apply (valueBefore value ts i) ⟨value i, t.connective⟩ := by
  rw [valueBefore, List.take_add_one, getElem?_numbered, ht, Option.map_some, Option.toList_some,
    List.map_append, List.map_singleton, fold, foldLeft_concat]
  rfl

/-- Where parts have values, a term is evaluated exactly if its connective asks for the value that
is reached before it. -/
theorem mem_asked_outline {value : Nat → Bool} {ts : List (Term α)} (h : Sequenced ts) {i : Nat}
    {t : Term α} (ht : ts[i]? = some t) :
    i ∈ (outline ts).asked value ↔
      ∀ c, t.connective = some c → c.isTight = valueBefore value ts i := by
  rw [outline, mem_asked_join_map (sequenced_numbered h)]
  constructor
  · rintro ⟨before, u, after, hts, hi, hn⟩ c hc
    obtain rfl : i = u.node := List.mem_singleton.mp hi
    have hu := getElem?_numbered ts before.length
    rw [hts, List.getElem?_append_right (Nat.le_refl _), Nat.sub_self] at hu
    obtain ⟨t', ht', rfl⟩ := Option.map_eq_some_iff.mp hu.symm
    obtain rfl : t' = t := Option.some.inj (ht'.symm.trans ht)
    have hneeded := Connective.needsSecond_iff.mp (hn c hc)
    rwa [valueBefore, hts, List.take_left]
  · intro hn
    have hu := getElem?_numbered ts i
    rw [ht, Option.map_some, List.getElem?_eq_some_iff] at hu
    obtain ⟨hlt, hu⟩ := hu
    have hsplit := List.take_append_drop i (numbered ts)
    rw [← List.getElem_cons_drop hlt, hu] at hsplit
    refine ⟨_, _, _, hsplit.symm, List.mem_singleton_self i, fun c hc ↦ ?_⟩
    exact Connective.needsSecond_iff.mpr (hn c hc)

/-- A term that is not evaluated leaves the value as it is. -/
theorem valueBefore_succ_of_not_mem {value : Nat → Bool} {ts : List (Term α)} (h : Sequenced ts)
    {i : Nat} {t : Term α} (ht : ts[i]? = some t) (hi : i ∉ (outline ts).asked value) :
    valueBefore value ts (i + 1) = valueBefore value ts i := by
  rw [mem_asked_outline h ht] at hi
  push Not at hi
  obtain ⟨c, hc, hn⟩ := hi
  have hskip : c.needsSecond (valueBefore value ts i) = false :=
    Bool.eq_false_iff.mpr fun hneeded ↦ hn (Connective.needsSecond_iff.mp hneeded)
  rw [valueBefore_succ value ht, combineNext, hc]
  exact Connective.apply_of_not_needsSecond hskip _

end Term

end SamplingFrame
