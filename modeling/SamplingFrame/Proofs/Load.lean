import Mathlib.Data.List.Forall2
import SamplingFrame.Load.Form
import SamplingFrame.Proofs.Except
import SamplingFrame.Proofs.Json.Source

/-!
# Loading objects and arrays from memory

An object gives the parts of a structure if each of its members is one of them under some spelling
of its key, or is under no spelling of any key, and if no part is given twice. In which order the
members stand does not matter then.
-/

namespace SamplingFrame

/-- Whether a value is an object of given members, in whatever order. -/
def Json.HasMembers (j : Json) (members : List (String × Json)) : Prop :=
  ∃ ms, j = .object ms ∧ ms.Perm members

namespace Json.HasMembers

variable {j : Json} {members : List (String × Json)}

theorem depth_lt (h : j.HasMembers members) {m : String × Json} (hm : m ∈ members) :
    (Source.ofJson m.2).depth < (Source.ofJson j).depth := by
  obtain ⟨ms, rfl, hms⟩ := h
  exact Source.depth_member_lt (hms.mem_iff.mpr hm)

/-- Within an object there is one level less than around it. -/
theorem exists_eq_add_one (h : j.HasMembers members) {n : Nat} (hn : (Source.ofJson j).depth ≤ n) :
    ∃ k, n = k + 1 ∧ ∀ m ∈ members, (Source.ofJson m.2).depth ≤ k := by
  have hpos : 0 < (Source.ofJson j).depth := by
    obtain ⟨ms, rfl, -⟩ := h
    rw [Source.ofJson, Source.depth]
    exact Nat.succ_pos _
  obtain ⟨k, rfl⟩ := Nat.exists_eq_add_one.mpr (Nat.lt_of_lt_of_le hpos hn)
  exact ⟨k, rfl, fun _ hm ↦ Nat.le_of_lt_succ (Nat.lt_of_lt_of_le (h.depth_lt hm) hn)⟩

end Json.HasMembers

/-- Items that load one by one are loaded as an array. -/
theorem Load.list_eq_ok {α : Type} {item : Load α} {xs : List α} {vs : List Json}
    (h : List.Forall₂ (fun x v ↦ item (.ofJson v) = .ok x) xs vs) :
    Load.list item (.ofJson (.array vs)) = .ok xs := by
  rw [Source.ofJson, list, Source.ofItems_eq]
  induction h with
  | nil => rfl
  | cons hx _ ih =>
    rw [List.map_cons, List.mapM_cons, hx, ih]
    rfl

/-! ### Parts in their places -/

namespace Slots

variable {κ : Type} {V : κ → Type} [DecidableEq κ] (slots : Slots κ V)

/-- No part at all. -/
def empty : Slots κ V := fun _ ↦ none

theorem set_self (k : κ) (x : V k) : slots.set k x k = some x := by
  simp [set]

theorem set_of_ne {k l : κ} (h : k ≠ l) (x : V k) : slots.set k x l = slots l := by
  simp [set, h]

/-- Different parts may be put into their places in either order. -/
theorem set_comm {k l : κ} (h : k ≠ l) (x : V k) (y : V l) :
    (slots.set k x).set l y = (slots.set l y).set k x := by
  funext i
  by_cases hk : k = i
  · subst hk
    rw [set_of_ne _ (Ne.symm h), set_self, set_self]
  · by_cases hl : l = i
    · subst hl
      rw [set_self, set_of_ne _ hk, set_self]
    · rw [set_of_ne _ hl, set_of_ne _ hk, set_of_ne _ hk, set_of_ne _ hl]

end Slots

/-! ### Members of an object -/

namespace Form

variable {κ : Type} {V : κ → Type} [DecidableEq κ]

/-- Members that give certain parts of a structure, each once. -/
inductive Gives (form : Form κ) (load : (k : κ) → Load (V k)) :
    List (String × Json) → Slots κ V → Prop where
  | nil : Gives form load [] Slots.empty
  | unknown {s v members parts} (hs : form.find? s = none) (h : Gives form load members parts) :
    Gives form load ((s, v) :: members) parts
  | part {s v k x members parts} (hs : form.find? s = some k) (hfree : parts k = none)
    (hx : load k (.ofJson v) = .ok x) (h : Gives form load members parts) :
    Gives form load ((s, v) :: members) (parts.set k x)

variable {form : Form κ} {load : (k : κ) → Load (V k)} {members : List (String × Json)}
  {parts : Slots κ V}

/-- Members under no spelling of any key give no part. -/
theorem Gives.of_unknown (h : ∀ s ∈ members.map (·.1), form.find? s = none) :
    form.Gives load members Slots.empty := by
  induction members with
  | nil => exact .nil
  | cons m members ih =>
    obtain ⟨hm, hmembers⟩ := List.forall_mem_cons.mp h
    exact .unknown hm (ih hmembers)

theorem Gives.swap {m n : String × Json} (h : form.Gives load (m :: n :: members) parts) :
    form.Gives load (n :: m :: members) parts := by
  cases h with
  | unknown hm h =>
    cases h with
    | unknown hn h => exact .unknown hn (.unknown hm h)
    | part hn hfree hx h => exact .part hn hfree hx (.unknown hm h)
  | @part _ _ k _ _ _ hm hfree hx h =>
    cases h with
    | unknown hn h => exact .unknown hn (.part hm hfree hx h)
    | @part _ _ l _ _ _ hn hfree' hy h =>
      have hne : l ≠ k := by
        rintro rfl
        rw [Slots.set_self] at hfree
        cases hfree
      rw [Slots.set_of_ne _ hne] at hfree
      rw [Slots.set_comm _ hne]
      refine .part hn ?_ hy (.part hm hfree hx h)
      rw [Slots.set_of_ne _ (Ne.symm hne), hfree']

/-- The order of the members does not matter. -/
theorem Gives.perm {ms : List (String × Json)} (hms : members.Perm ms)
    (h : form.Gives load members parts) : form.Gives load ms parts := by
  induction hms generalizing parts with
  | nil => exact h
  | cons m _ ih =>
    cases h with
    | unknown hs h => exact .unknown hs (ih h)
    | part hs hfree hx h => exact .part hs hfree hx (ih h)
  | swap m n _ => exact h.swap
  | trans _ _ ih₁ ih₂ => exact ih₂ (ih₁ h)

/-- Members are loaded onto the parts that were met before them. -/
theorem Gives.readMembers (h : form.Gives load members parts) {slots : Slots κ V}
    (hfree : ∀ k, parts k ≠ none → slots k = none) :
    form.readMembers load slots (Source.ofMembers members) =
      .ok fun k ↦ (parts k).or (slots k) := by
  induction h generalizing slots with
  | nil => rfl
  | @unknown s v members parts hs h ih =>
    rw [Source.ofMembers, Form.readMembers, hs]
    simp only [Source.isWhole_ofJson, if_true]
    exact ih hfree
  | @part s v k x members parts hs hk hx h ih =>
    have hslot : slots k = none := hfree k (by rw [Slots.set_self]; nofun)
    have hrest : ∀ l, parts l ≠ none → slots.set k x l = none := by
      intro l hl
      have hne : k ≠ l := fun he ↦ hl (he ▸ hk)
      rw [Slots.set_of_ne _ hne]
      exact hfree l (by rwa [Slots.set_of_ne _ hne])
    rw [Source.ofMembers, Form.readMembers, hs]
    simp only [hslot, hx, bind, Except.bind]
    rw [ih hrest]
    refine congrArg Except.ok (funext fun l ↦ ?_)
    by_cases he : k = l
    · subst he
      rw [hk, Slots.set_self, Slots.set_self]
      rfl
    · rw [Slots.set_of_ne _ he, Slots.set_of_ne _ he]

/-- An object that gives the parts of a structure is loaded as these, from memory or from a text. -/
theorem Gives.read_members (h : form.Gives load members parts) {ms : List (String × Json)}
    (hms : ms.Perm members) (streamed : Bool) :
    form.read load (.object streamed (Source.ofMembers ms)) =
      .ok ⟨parts, fun k ↦ .missingKey (form.name k)⟩ := by
  have hmet : form.readMembers load (fun _ ↦ none) (Source.ofMembers ms) = .ok parts := by
    rw [(h.perm hms.symm).readMembers fun _ _ ↦ rfl]
    exact congrArg Except.ok (funext fun k ↦ Option.or_none)
  rw [Form.read, Form.readObject, hmet]
  · rfl
  · nofun

theorem Gives.read (h : form.Gives load members parts) {j : Json} (hj : j.HasMembers members) :
    form.read load (.ofJson j) = .ok ⟨parts, fun k ↦ .missingKey (form.name k)⟩ := by
  obtain ⟨ms, rfl, hms⟩ := hj
  rw [Source.ofJson, h.read_members hms]

theorem Gives.readObject (h : form.Gives load members parts) {j : Json}
    (hj : j.HasMembers members) : form.readObject load (.ofJson j) =
      .ok ⟨parts, fun k ↦ .missingKey (form.name k)⟩ := by
  rw [← h.read hj]
  obtain ⟨ms, rfl, -⟩ := hj
  rw [Source.ofJson]
  rfl

/-! ### Parts that were loaded -/

variable {slots : Slots κ V} {k : κ}

/-- A part that has been loaded stays as it is. -/
theorem slot_of_readMembers {ms : List (Option String × Source)} {x : V k} (hx : slots k = some x)
    (h : form.readMembers load slots ms = .ok parts) : parts k = some x := by
  induction ms generalizing slots with
  | nil =>
    cases h
    exact hx
  | cons m ms ih =>
    obtain ⟨_ | s, v⟩ := m
    · cases h
    · rw [Form.readMembers] at h
      split at h
      · split at h
        · exact ih hx h
        · cases h
      · next l _ =>
        split at h
        · cases h
        · next hfree =>
          obtain ⟨y, -, h⟩ := bind_eq_ok.mp h
          have hne : l ≠ k := by
            rintro rfl
            rw [hx] at hfree
            cases hfree
          exact ih (by rwa [Slots.set_of_ne _ hne]) h

/-- A member under a spelling of a key is loaded as the part of that key. -/
theorem exists_part_of_mem {ms : List (Option String × Source)} {s : String} {v : Source}
    (hs : form.find? s = some k) (hm : (some s, v) ∈ ms)
    (h : form.readMembers load slots ms = .ok parts) :
    ∃ x, load k v = .ok x ∧ parts k = some x := by
  induction ms generalizing slots with
  | nil => cases hm
  | cons m ms ih =>
    obtain ⟨_ | s', v'⟩ := m
    · cases h
    · rw [Form.readMembers] at h
      split at h
      · next hs' =>
        split at h
        · rcases List.mem_cons.mp hm with heq | hm
          · cases heq
            rw [hs] at hs'
            cases hs'
          · exact ih hm h
        · cases h
      · next l hs' =>
        split at h
        · cases h
        · obtain ⟨y, hy, hrest⟩ := bind_eq_ok.mp h
          rcases List.mem_cons.mp hm with heq | hm
          · cases heq
            rw [hs] at hs'
            obtain rfl := Option.some.inj hs'
            exact ⟨y, hy, slot_of_readMembers (Slots.set_self _ _ _) hrest⟩
          · exact ih hm hrest

end Form

end SamplingFrame
