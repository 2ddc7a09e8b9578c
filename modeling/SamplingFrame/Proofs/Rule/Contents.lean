import SamplingFrame.Proofs.Rule.Shown

/-!
# What a payload holds

A payload has the shape that its operator asks for, and holds one value for each element of what was
stored: the value that the element is read as alone. All of them are values of the type of the
field, and the ends of a range are in their order. Where the items of an array are not all read, the
first one that is not read alone says why.
-/

namespace SamplingFrame

namespace Payload

variable {field : Field} {operator : Operator} {type : FieldType} {raw v : Json} {s : Scalar}
  {payload : Payload}

/-! ### Values of a type -/

theorem shows_of_readText {text : String} (h : readText type text = .ok s) : type.Shows s := by
  refine ⟨kind_of_readText h, ?_⟩
  rintro rfl code rfl
  simp only [readText] at h
  split at h
  · cases h
  · next hfilled =>
    cases h
    refine ⟨fun hnil ↦ hfilled ?_, ?_⟩
    · rw [List.isEmpty_iff]
      exact String.ofList_eq_empty_iff.mp hnil
    · rw [String.toList_ofList]
      exact Text.isTrimmed_trim _

/-- What is read is a value that its text stands for. -/
theorem shows_of_readScalar (h : readScalar type v = .ok s) : type.Shows s := by
  refine ⟨kind_of_readScalar h, ?_⟩
  rintro rfl
  cases v with
  | string text =>
    have hread : readText .code text = .ok s := h
    exact (shows_of_readText hread).code rfl
  | number n =>
    have hread : readText .code (String.ofList n.render) = .ok s := h
    exact (shows_of_readText hread).code rfl
  | boolean b | null | array _ | object _ => cases h

/-! ### Elements -/

/-- The elements of a stored value, for a payload of a given shape: the value itself, the items of
an array, or the parts of a text without the blanks around them. -/
def elements : Shape → Json → List Json
  | .scalar, v => [v]
  | .list, .string text => parts listSeparator text
  | .range, .string text => parts rangeSeparator text
  | .list, .array vs | .range, .array vs => vs
  | _, _ => []

/-- A stored value is read as one value, by every operator that takes one. -/
def ReadsAlone (field : Field) (v : Json) (s : Scalar) : Prop :=
  ∀ operator : Operator, operator.shape = .scalar → read field operator v = .ok (.scalar s)

/-- A stored value is not read as one value, for one reason. -/
def FailsAlone (field : Field) (v : Json) (reason : Reason) : Prop :=
  ∀ operator : Operator, operator.shape = .scalar →
    read field operator v = .error (.badPayload field operator (rawText v) reason)

theorem readsAlone_iff : ReadsAlone field v s ↔ readScalar field.type v = .ok s := by
  constructor
  · intro h
    exact (read_eq_scalar_iff rfl).mp (h .equal rfl)
  · intro h operator hshape
    exact (read_eq_scalar_iff hshape).mpr h

theorem readItem_eq_error_iff {fault : Fault} :
    readItem field operator v = .error fault ↔ ∃ reason, readScalar field.type v = .error reason ∧
      fault = .badPayload field operator (rawText v) reason := by
  unfold readItem
  cases readScalar field.type v with
  | ok s => simp
  | error reason => simp [refuse, eq_comm]

theorem failsAlone_iff {reason : Reason} :
    FailsAlone field v reason ↔ readScalar field.type v = .error reason := by
  have hitem (operator : Operator) (hshape : operator.shape = .scalar) {fault : Fault} :
      read field operator v = .error fault ↔ readItem field operator v = .error fault := by
    rw [read, hshape, bind_eq_error]
    simp [pure, Except.pure]
  constructor
  · intro h
    have hequal := h .equal rfl
    rw [hitem .equal rfl, readItem_eq_error_iff] at hequal
    obtain ⟨reason', hreason, heq⟩ := hequal
    simp only [Fault.badPayload.injEq, true_and] at heq
    rwa [heq]
  · intro h operator hshape
    rw [hitem operator hshape, readItem_eq_error_iff]
    exact ⟨reason, h, rfl⟩

theorem shows_of_readsAlone {vs : List Json} {ss : List Scalar}
    (h : List.Forall₂ (ReadsAlone field) vs ss) : ∀ s ∈ ss, field.type.Shows s := by
  induction h with
  | nil => simp
  | cons hs _ ih =>
    exact List.forall_mem_cons.mpr ⟨shows_of_readScalar (readsAlone_iff.mp hs), ih⟩

/-- The items of a list are its elements. -/
theorem exists_items_of_readList (h : readList field operator raw = .ok payload) :
    ∃ ss, payload = .list ss ∧ elements .list raw ≠ [] ∧
      List.Forall₂ (ReadsAlone field) (elements .list raw) ss := by
  have hitems {vs : List Json} {ss : List Scalar} (hss : readItems field operator vs = .ok ss) :
      List.Forall₂ (ReadsAlone field) vs ss :=
    (readItems_eq_ok_iff.mp hss).imp fun _ _ ↦ readsAlone_iff.mpr
  unfold readList at h
  split at h
  · cases h
  · next hne =>
    obtain ⟨ss, hss, h⟩ := bind_eq_ok.mp h
    cases h
    exact ⟨ss, rfl, fun hnil ↦ hne hnil, hitems hss⟩
  · split at h
    · cases h
    · obtain ⟨ss, hss, h⟩ := bind_eq_ok.mp h
      cases h
      exact ⟨ss, rfl, parts_ne_nil _ _, hitems hss⟩
  · cases h

/-- The ends of a range are its elements, the lower one first. -/
theorem exists_ends_of_readRange (h : readRange field operator raw = .ok payload) :
    ∃ l u, payload = .range l u ∧ l.compare? u ≠ some .gt ∧
      List.Forall₂ (ReadsAlone field) (elements .range raw) [l, u] := by
  have hends {low high : Json} (helements : elements .range raw = [low, high])
      (h : readEnds field operator raw low high = .ok payload) :
      ∃ l u, payload = .range l u ∧ l.compare? u ≠ some .gt ∧
        List.Forall₂ (ReadsAlone field) (elements .range raw) [l, u] := by
    obtain ⟨l, u, hl, hu, hle, rfl⟩ := readEnds_eq_ok_iff.mp h
    rw [helements]
    exact ⟨l, u, rfl, hle, .cons (readsAlone_iff.mpr hl) (.cons (readsAlone_iff.mpr hu) .nil)⟩
  unfold readRange at h
  split at h
  · cases h
  · exact hends rfl h
  · cases h
  · split at h
    · cases h
    · split at h
      · next hparts => exact hends hparts h
      · cases h
  · cases h

/-! ### Payloads -/

/-- What a payload that was read has to do with what was stored. -/
structure Represents (field : Field) (operator : Operator) (raw : Json) (payload : Payload) :
    Prop where
  shape : payload.shape = operator.shape
  filled : payload.scalars ≠ []
  /-- There is one value for each element, in order, and it is what the element is read as alone. -/
  elements : List.Forall₂ (ReadsAlone field) (elements operator.shape raw) payload.scalars
  /-- The values are of the kind of the field, and codes are not empty and have no blanks at their
  ends. -/
  shows : ∀ s ∈ payload.scalars, field.type.Shows s
  ordered : ∀ low high, payload = .range low high → ∃ o, low.compare? high = some o ∧ o.isLE = true

theorem represents_of_elements (hshape : payload.shape = operator.shape)
    (hfilled : payload.scalars ≠ [])
    (helements : List.Forall₂ (ReadsAlone field) (elements operator.shape raw) payload.scalars)
    (hordered : ∀ low high, payload = .range low high → low.compare? high ≠ some .gt) :
    Represents field operator raw payload := by
  have hshows := shows_of_readsAlone helements
  refine ⟨hshape, hfilled, helements, hshows, ?_⟩
  rintro low high rfl
  have hkind : low.kind = high.kind := by
    rw [(hshows low (by simp [scalars])).kind, (hshows high (by simp [scalars])).kind]
  obtain ⟨o, ho⟩ := Option.isSome_iff_exists.mp (Scalar.compare?_isSome_iff.mpr hkind)
  refine ⟨o, ho, ?_⟩
  cases o with
  | lt | eq => rfl
  | gt => exact absurd ho (hordered low high rfl)

theorem represents_of_eq_ok (h : read field operator raw = .ok payload) :
    Represents field operator raw payload := by
  unfold read at h
  split at h
  · next hshape =>
    obtain ⟨s, hs, h⟩ := bind_eq_ok.mp h
    cases h
    refine represents_of_elements hshape.symm (by simp [scalars]) ?_ (by simp)
    rw [hshape]
    exact .cons (readsAlone_iff.mpr (readItem_eq_ok_iff.mp hs)) .nil
  · next hshape =>
    obtain ⟨ss, rfl, hne, hss⟩ := exists_items_of_readList h
    refine represents_of_elements hshape.symm ?_ (by rwa [hshape]) (by simp)
    show ss ≠ []
    rintro rfl
    exact hne (List.forall₂_nil_right_iff.mp hss)
  · next hshape =>
    obtain ⟨l, u, rfl, hle, hends⟩ := exists_ends_of_readRange h
    refine represents_of_elements hshape.symm (by simp [scalars]) (by rwa [hshape]) ?_
    rintro low high heq
    cases heq
    exact hle

/-! ### Items that are not read -/

/-- A fault is that of the first item that is not read alone. -/
def FirstRefused (field : Field) (operator : Operator) (vs : List Json) (fault : Fault) : Prop :=
  ∃ before v after reason, vs = before ++ v :: after ∧ (∀ u ∈ before, ∃ s, ReadsAlone field u s) ∧
    FailsAlone field v reason ∧ fault = .badPayload field operator (rawText v) reason

theorem faultOf_readItems_eq (vs : List Json) :
    faultOf (readItems field operator vs) =
      vs.findSome? fun v ↦ faultOf (readItem field operator v) := by
  induction vs with
  | nil => rfl
  | cons v vs ih =>
    rw [List.findSome?_cons, ← ih, readItems, faultOf_bind fun s _ ↦ faultOf_map (s :: ·) _]
    cases faultOf (readItem field operator v) <;> rfl

theorem readItems_eq_error_iff {vs : List Json} {fault : Fault} :
    readItems field operator vs = .error fault ↔ FirstRefused field operator vs fault := by
  rw [eq_error_iff_of_faultOf (faultOf_readItems_eq vs), FirstRefused]
  simp only [faultOf_eq_none, faultOf_eq_some, readItem_eq_ok_iff, readItem_eq_error_iff,
    readsAlone_iff, failsAlone_iff]
  constructor
  · rintro ⟨v, before, after, rfl, hbefore, reason, hreason, rfl⟩
    exact ⟨before, v, after, reason, rfl, hbefore, hreason, rfl⟩
  · rintro ⟨before, v, after, reason, rfl, hbefore, hreason, rfl⟩
    exact ⟨v, before, after, rfl, hbefore, reason, hreason, rfl⟩

theorem readList_eq_error_iff {vs : List Json} {fault : Fault} (hne : vs ≠ []) :
    readList field operator (.array vs) = .error fault ↔ FirstRefused field operator vs fault := by
  obtain ⟨v, vs, rfl⟩ := List.exists_cons_of_ne_nil hne
  rw [← readItems_eq_error_iff, readList, bind_eq_error]
  · simp [pure, Except.pure]
  · simp

/-- A payload that is read represents what was stored: it has the shape of the operator, and its
values are what the elements are read as alone. An array of items is not read as a list exactly if
some item is not read alone, and the fault is that of the first such item. -/
theorem represents_of_read (field : Field) (operator : Operator) :
    (∀ raw payload, read field operator raw = .ok payload →
      Represents field operator raw payload) ∧
    (operator.shape = .list → ∀ vs, vs ≠ [] → ∀ fault,
      read field operator (.array vs) = .error fault ↔ FirstRefused field operator vs fault) := by
  constructor
  · intro raw payload h
    exact represents_of_eq_ok h
  · intro hshape vs hne fault
    rw [read, hshape]
    exact readList_eq_error_iff hne

/-- Codes in one text with blanks around them, and an array in which the second item is no
number. -/
theorem represents_of_read_padded :
    read .region .inList (.string " 10,20\t") = .ok (.list [.text "10", .text "20"]) ∧
      Represents .region .inList (.string " 10,20\t") (.list [.text "10", .text "20"]) ∧
      FirstRefused .employees .inList [.number (.integer 1), .string "x", .null]
        (.badPayload .employees .inList "x" (.integerText .invalidDigit)) := by
  have hread :
      read .region .inList (.string " 10,20\t") = .ok (.list [.text "10", .text "20"]) := by
    decide +kernel
  have hrefused : read .employees .inList
      (.array [.number (.integer 1), .string "x", .null]) =
        .error (.badPayload .employees .inList "x" (.integerText .invalidDigit)) := by
    decide +kernel
  refine ⟨hread, (represents_of_read _ _).1 _ _ hread, ?_⟩
  exact ((represents_of_read _ _).2 rfl _ (by simp) _).mp hrefused

end Payload

end SamplingFrame
