import SamplingFrame.Json.Source

/-!
# Values in memory as sources

The members of an object in memory stand in ascending order of their keys, each key once. A value of
that kind is read back from the source that it is. A source in memory can be skipped as a whole, and
its parts are less deep than itself.
-/

namespace SamplingFrame

namespace Json

mutual

/-- Whether the members of every object in a value stand in ascending order of their keys, as they
do in each value that was loaded. -/
def Ordered : Json → Prop
  | .array items => ItemsOrdered items
  | .object members => members.Pairwise (·.1 < ·.1) ∧ MembersOrdered members
  | .null | .boolean _ | .number _ | .string _ => True

/-- Whether all items of an array are ordered. -/
def ItemsOrdered : List Json → Prop
  | [] => True
  | v :: vs => Ordered v ∧ ItemsOrdered vs

/-- Whether the values of all members are ordered. -/
def MembersOrdered : List (String × Json) → Prop
  | [] => True
  | (_, v) :: ms => Ordered v ∧ MembersOrdered ms

end

/-- A member of the greatest key is put at the end. -/
theorem insertMember_of_forall_lt {key : String} {met : List (String × Json)}
    (h : ∀ m ∈ met, m.1 < key) (value : Json) :
    insertMember key value met = met ++ [(key, value)] := by
  induction met with
  | nil => rfl
  | cons m met ih =>
    obtain ⟨k, v⟩ := m
    have hk : k < key := h (k, v) List.mem_cons_self
    have hne : key ≠ k := fun he ↦ String.lt_irrefl k (he ▸ hk)
    rw [insertMember, if_neg (String.lt_asymm hk), if_neg hne,
      ih fun m hm ↦ h m (List.mem_cons_of_mem _ hm), List.cons_append]

end Json

namespace Source

/-! ### Reading back -/

mutual

/-- An ordered value is read back from its source. -/
theorem toJson?_ofJson : ∀ v : Json, v.Ordered → (ofJson v).toJson? = some v
  | .null, _ | .boolean _, _ | .number _, _ | .string _, _ => rfl
  | .array items, h => by
    rw [Json.Ordered] at h
    rw [ofJson, toJson?, toItems?_ofItems items h, Option.map_some]
  | .object members, h => by
    rw [Json.Ordered] at h
    have hmembers := toMembers?_ofMembers [] members h.1 h.2
    rw [ofJson, toJson?, hmembers, Option.map_some, List.nil_append]

theorem toItems?_ofItems : ∀ vs : List Json, Json.ItemsOrdered vs →
    toItems? (ofItems vs) = some vs
  | [], _ => rfl
  | v :: vs, h => by
    rw [Json.ItemsOrdered] at h
    rw [ofItems, toItems?, toJson?_ofJson v h.1, toItems?_ofItems vs h.2]
    rfl

/-- Members that follow in ascending order are added at the end. -/
theorem toMembers?_ofMembers : ∀ (met ms : List (String × Json)),
    (met ++ ms).Pairwise (·.1 < ·.1) → Json.MembersOrdered ms →
      toMembers? met (ofMembers ms) = some (met ++ ms)
  | met, [], _, _ => by rw [ofMembers, toMembers?, List.append_nil]
  | met, (k, v) :: ms, hsorted, h => by
    rw [Json.MembersOrdered] at h
    have hlast : ∀ m ∈ met, m.1 < k := fun m hm ↦
      (List.pairwise_append.mp hsorted).2.2 m hm (k, v) List.mem_cons_self
    have hrest := toMembers?_ofMembers (met ++ [(k, v)]) ms
      (by rwa [List.append_assoc, List.singleton_append]) h.2
    rw [List.append_assoc, List.singleton_append] at hrest
    rw [ofMembers, toMembers?, toJson?_ofJson v h.1]
    simp only [Option.bind_eq_bind, Option.bind_some]
    rw [Json.insertMember_of_forall_lt hlast, hrest]

end

/-! ### Skipping -/

mutual

/-- A value in memory can be skipped. -/
theorem isWhole_ofJson : ∀ v : Json, (ofJson v).isWhole = true
  | .null | .boolean _ | .number _ | .string _ => rfl
  | .array items => by rw [ofJson, isWhole, itemsWhole_ofItems]
  | .object members => by rw [ofJson, isWhole, membersWhole_ofMembers]

theorem itemsWhole_ofItems : ∀ vs : List Json, itemsWhole (ofItems vs) = true
  | [] => rfl
  | v :: vs => by rw [ofItems, itemsWhole, isWhole_ofJson, itemsWhole_ofItems]; rfl

theorem membersWhole_ofMembers : ∀ ms : List (String × Json), membersWhole (ofMembers ms) = true
  | [] => rfl
  | (_, v) :: ms => by rw [ofMembers, membersWhole, isWhole_ofJson, membersWhole_ofMembers]; rfl

end

/-! ### Depth -/

theorem ofItems_eq (vs : List Json) : ofItems vs = vs.map ofJson := by
  induction vs with
  | nil => rfl
  | cons v vs ih => rw [ofItems, ih, List.map_cons]

theorem depth_le_itemsDepth {v : Source} {vs : List Source} (h : v ∈ vs) :
    v.depth ≤ itemsDepth vs := by
  induction vs with
  | nil => cases h
  | cons u us ih =>
    rw [itemsDepth]
    rcases List.mem_cons.mp h with rfl | h
    · exact Nat.le_max_left _ _
    · exact Nat.le_trans (ih h) (Nat.le_max_right _ _)

/-- An item is less deep than its array. -/
theorem depth_item_lt {v : Json} {vs : List Json} (h : v ∈ vs) :
    (ofJson v).depth < (ofJson (.array vs)).depth := by
  rw [ofJson, depth, ofItems_eq]
  exact Nat.lt_succ_of_le (depth_le_itemsDepth (List.mem_map_of_mem h))

theorem depth_le_membersDepth {k : String} {v : Json} {ms : List (String × Json)}
    (h : (k, v) ∈ ms) : (ofJson v).depth ≤ membersDepth (ofMembers ms) := by
  induction ms with
  | nil => cases h
  | cons m ms ih =>
    rw [ofMembers, membersDepth]
    rcases List.mem_cons.mp h with rfl | h
    · exact Nat.le_max_left _ _
    · exact Nat.le_trans (ih h) (Nat.le_max_right _ _)

/-- The value of a member is less deep than its object. -/
theorem depth_member_lt {k : String} {v : Json} {ms : List (String × Json)} (h : (k, v) ∈ ms) :
    (ofJson v).depth < (ofJson (.object ms)).depth := by
  rw [ofJson, depth]
  exact Nat.lt_succ_of_le (depth_le_membersDepth h)

end Source

end SamplingFrame
