import SamplingFrame.Proofs.Json.Numeral

/-!
# Texts of documents

A string in quotes is read back as it is, whatever characters it has, and holds no control
character; so are null, truth values and whole numbers that fit a word. So an object of such values
makes up one line, from which the same values are read under the same keys.
-/

namespace SamplingFrame

namespace Json

open Source (plainEscape?)

/-- How a character is written: by a letter, by its number, or as it is. -/
theorem escape_cases (c : Char) :
    (∃ x, escape c = ['\\', x] ∧ 32 ≤ x.toNat ∧ plainEscape? x = some c) ∨
      (c.toNat < 32 ∧ escape c = '\\' :: 'u' :: '0' :: '0' :: hexPair c.toNat) ∨
      (32 ≤ c.toNat ∧ c ≠ '"' ∧ c ≠ '\\' ∧ escape c = [c]) := by
  by_cases hletter : c = '"' ∨ c = '\\' ∨ c = '\n' ∨ c = '\r' ∨ c = '\t' ∨ c = '\x08' ∨ c = '\x0c'
  · left
    rcases hletter with rfl | rfl | rfl | rfl | rfl | rfl | rfl <;>
      exact ⟨_, rfl, by decide, by decide⟩
  · simp only [not_or] at hletter
    obtain ⟨h₁, h₂, h₃, h₄, h₅, h₆, h₇⟩ := hletter
    right
    unfold escape
    rw [if_neg h₁, if_neg h₂, if_neg h₃, if_neg h₄, if_neg h₅, if_neg h₆, if_neg h₇]
    by_cases hc : c.toNat < 32
    · exact .inl ⟨hc, if_pos hc⟩
    · exact .inr ⟨Nat.not_lt.mp hc, h₁, h₂, if_neg hc⟩

/-- The digits of a control character, after two zeros. -/
theorem hexPair_eq : ∀ n < 32, hexPair n = [(n / 16).digitChar, (n % 16).digitChar] := by
  decide

/-! ### Lines -/

/-- Whether a text has no control character, and so no end of a line either. -/
def Unbroken (cs : List Char) : Prop := ∀ c ∈ cs, 32 ≤ c.toNat

instance (cs : List Char) : Decidable (Unbroken cs) :=
  List.decidableBAll (fun c : Char ↦ 32 ≤ c.toNat) cs

theorem unbroken_append {cs ds : List Char} : Unbroken (cs ++ ds) ↔ Unbroken cs ∧ Unbroken ds :=
  List.forall_mem_append

theorem unbroken_cons {c : Char} {cs : List Char} :
    Unbroken (c :: cs) ↔ 32 ≤ c.toNat ∧ Unbroken cs :=
  List.forall_mem_cons

theorem unbroken_hexPair : ∀ n < 32, Unbroken (hexPair n) := by
  decide

theorem unbroken_escape (c : Char) : Unbroken (escape c) := by
  obtain ⟨x, hx, hle, -⟩ | ⟨hc, hx⟩ | ⟨hle, -, -, hx⟩ := escape_cases c
  · rw [hx, unbroken_cons, unbroken_cons]
    exact ⟨by decide, hle, by decide⟩
  · simp only [hx, unbroken_cons]
    exact ⟨by decide, by decide, by decide, by decide, unbroken_hexPair _ hc⟩
  · rw [hx, unbroken_cons]
    exact ⟨hle, by decide⟩

theorem unbroken_quote (s : String) : Unbroken (quote s) := by
  rw [quote, List.cons_append, unbroken_cons, unbroken_append]
  refine ⟨by decide, fun c hc ↦ ?_, by decide⟩
  obtain ⟨d, -, hd⟩ := List.mem_flatMap.mp hc
  exact unbroken_escape d c hd

theorem unbroken_digits (n : Nat) : Unbroken (Whole.digits n) := by
  intro c hc
  exact Nat.le_trans (by decide) (Char.isDigit_iff_toNat.mp (Whole.isDigits_digits n c hc)).1

/-- A value without parts that is read back from its text: floating point numbers are not. -/
def IsPlain : Json → Prop
  | .null | .boolean _ | .string _ => True
  | .number (.integer n) => Whole.IsWord n
  | .number (.double _) | .array _ | .object _ => False

theorem unbroken_of_isPlain {v : Json} (hv : v.IsPlain) : Unbroken v.render := by
  cases v with
  | null => decide
  | boolean b => cases b <;> decide
  | string s => exact unbroken_quote s
  | number n =>
    cases n with
    | double x => cases hv
    | integer n =>
      rw [render, Number.render, Whole.render]
      split
      · exact unbroken_cons.mpr ⟨by decide, unbroken_digits _⟩
      · exact unbroken_digits _
  | array items | object members => cases hv

theorem renderMembers_cons (k : String) (v : Json) (m : String × Json)
    (members : List (String × Json)) :
    renderMembers ((k, v) :: m :: members) =
      quote k ++ ':' :: render v ++ ',' :: renderMembers (m :: members) := by
  rw [renderMembers]
  exact List.cons_ne_nil _ _

theorem unbroken_renderMembers {members : List (String × Json)}
    (h : ∀ m ∈ members, m.2.IsPlain) : Unbroken (renderMembers members) := by
  induction members with
  | nil => decide
  | cons m members ih =>
    obtain ⟨hm, hmembers⟩ := List.forall_mem_cons.mp h
    obtain ⟨k, v⟩ := m
    have hmember : Unbroken (quote k ++ ':' :: render v) :=
      unbroken_append.mpr ⟨unbroken_quote k, unbroken_cons.mpr ⟨by decide, unbroken_of_isPlain hm⟩⟩
    cases members with
    | nil => exact hmember
    | cons m members =>
      rw [renderMembers_cons]
      exact unbroken_append.mpr ⟨hmember, unbroken_cons.mpr ⟨by decide, ih hmembers⟩⟩

/-- A text is long enough to count its members. -/
theorem length_le_length_renderMembers (members : List (String × Json)) :
    members.length ≤ (renderMembers members).length := by
  induction members with
  | nil => exact Nat.zero_le _
  | cons m members ih =>
    obtain ⟨k, v⟩ := m
    cases members with
    | nil => exact Nat.succ_le_succ (Nat.zero_le _)
    | cons m members =>
      rw [renderMembers_cons, List.length_append, List.length_cons (a := ',')]
      exact Nat.le_trans (Nat.succ_le_succ ih) (Nat.le_add_left _ _)

/-- An object of plain values is one line. -/
theorem unbroken_render {members : List (String × Json)} (h : ∀ m ∈ members, m.2.IsPlain) :
    Unbroken (render (.object members)) := by
  rw [render, List.cons_append, unbroken_cons, unbroken_append]
  exact ⟨by decide, unbroken_renderMembers h, by decide⟩

end Json

namespace Source

open Json (escape escape_cases hexPair hexPair_eq quote renderMembers)

/-! ### Strings -/

variable {p : Partial}

theorem readString_letter {x c : Char} (h : plainEscape? x = some c) (cs : List Char) :
    readString p ('\\' :: x :: cs) = readString (p.push c) cs := by
  rw [readString, h]
  rintro _ _ _ _ _ rfl
  cases h

/-- A control character is what its digits stand for. -/
theorem numberIn?_control :
    ∀ n < 32, Text.numberIn? 16 ['0', '0', (n / 16).digitChar, (n % 16).digitChar] = some n := by
  decide

theorem pushUnit_control (hp : p.pending = none) {c : Char} (hc : c.toNat < 32) :
    p.pushUnit c.toNat = p.push c := by
  have h₁ : ¬ (0xD800 ≤ c.toNat) := by omega
  have h₂ : ¬ (0xDC00 ≤ c.toNat) := by omega
  simp [Partial.pushUnit, Partial.push, hp, h₁, h₂]

theorem readString_number (hp : p.pending = none) {c : Char} (hc : c.toNat < 32) (cs : List Char) :
    readString p ('\\' :: 'u' :: '0' :: '0' :: hexPair c.toNat ++ cs) =
      readString (p.push c) cs := by
  rw [hexPair_eq _ hc]
  simp only [List.cons_append, List.nil_append, readString, numberIn?_control _ hc,
    pushUnit_control hp hc]

theorem readString_plain {c : Char} (hc : 32 ≤ c.toNat) (hquote : c ≠ '"') (hslash : c ≠ '\\')
    (cs : List Char) : readString p (c :: cs) = readString (p.push c) cs := by
  rw [readString]
  · simp [hslash, Nat.not_lt.mpr hc]
  all_goals simp_all

theorem readString_escape (hp : p.pending = none) (c : Char) (cs : List Char) :
    readString p (escape c ++ cs) = readString (p.push c) cs := by
  obtain ⟨x, hx, -, hletter⟩ | ⟨hc, hx⟩ | ⟨hle, hquote, hslash, hx⟩ := escape_cases c
  · rw [hx]
    exact readString_letter hletter cs
  · rw [hx]
    exact readString_number hp hc cs
  · rw [hx]
    exact readString_plain hle hquote hslash cs

/-- The characters of a string are read back up to the quote after them. -/
theorem readString_flatMap (before cs rest : List Char) :
    readString { reversed := before } (cs.flatMap escape ++ '"' :: rest) =
      some (some (String.ofList (before.reverse ++ cs)), rest) := by
  induction cs generalizing before with
  | nil => rw [List.flatMap_nil, List.nil_append, readString, List.append_nil]; rfl
  | cons c cs ih =>
    rw [List.flatMap_cons, List.append_assoc, readString_escape rfl]
    have hnext := ih (c :: before)
    rw [List.reverse_cons, List.append_assoc, List.singleton_append] at hnext
    exact hnext

theorem readString_quote (s : String) (rest : List Char) :
    readString {} (s.toList.flatMap escape ++ '"' :: rest) = some (some s, rest) := by
  have h := readString_flatMap [] s.toList rest
  rwa [List.reverse_nil, List.nil_append, String.ofList_toList] at h

theorem quote_append (s : String) (rest : List Char) :
    quote s ++ rest = '"' :: (s.toList.flatMap escape ++ '"' :: rest) := by
  simp [quote]

theorem skipSpace_cons {c : Char} (hc : isSpace c = false) (cs : List Char) :
    skipSpace (c :: cs) = c :: cs :=
  List.dropWhile_cons_of_neg (by simp [hc])

theorem readValue_quote (fuel depth : Nat) (s : String) (rest : List Char) :
    readValue (fuel + 1) depth (quote s ++ rest) = (.string s, some rest) := by
  rw [quote_append, readValue, skipSpace_cons (by decide)]
  simp only [if_pos, readString_quote]

theorem readWord_append (word : String) (v : Source) (rest : List Char) :
    readWord word v (word.toList ++ rest) = (v, some rest) := by
  rw [readWord, if_pos (List.isPrefixOf_iff_prefix.mpr (List.prefix_append _ _)),
    ← String.length_toList, List.drop_left]

/-- A number is read in front of the end of a value. -/
theorem readValue_whole (fuel depth : Nat) {n : Int} (hn : Whole.IsWord n) {c : Char}
    (hc : IsEnd c) (rest : List Char) :
    readValue (fuel + 1) depth (Whole.render n ++ c :: rest) =
      (.number (.integer n), some (c :: rest)) := by
  have hread := readNumber_digits hc hn rest
  unfold Whole.render
  split
  · next hneg =>
    rw [decide_eq_true hneg] at hread
    rw [List.cons_append, readValue, skipSpace_cons (by decide)]
    exact hread
  · next hpos =>
    obtain ⟨d, ds, hds⟩ := List.exists_cons_of_ne_nil (Whole.digits_ne_nil n.natAbs)
    have hd : d.isDigit = true := Whole.isDigits_digits n.natAbs d (by simp [hds])
    have hne {x : Char} (hx : x.isDigit = false) : d ≠ x := by
      rintro rfl
      rw [hd] at hx
      cases hx
    rw [decide_eq_false hpos, hds, List.cons_append] at hread
    rw [hds, List.cons_append, readValue, skipSpace_cons (by simp [isSpace, hne])]
    dsimp only
    rw [if_neg (hne rfl), if_neg (hne rfl), if_neg (hne rfl), if_neg (hne rfl), if_neg (hne rfl),
      if_neg (hne rfl), if_neg (hne rfl)]
    exact hread

/-- A plain value is read in front of the end of a value. -/
theorem readValue_plain (fuel depth : Nat) {v : Json} (hv : v.IsPlain) {c : Char} (hc : IsEnd c)
    (rest : List Char) :
    readValue (fuel + 1) depth (v.render ++ c :: rest) = (.ofJson v, some (c :: rest)) := by
  cases v with
  | null => exact readWord_append "ull" .null (c :: rest)
  | boolean b =>
    cases b with
    | true => exact readWord_append "rue" (.boolean true) (c :: rest)
    | false => exact readWord_append "alse" (.boolean false) (c :: rest)
  | string s => exact readValue_quote fuel depth s (c :: rest)
  | number n =>
    cases n with
    | double x => cases hv
    | integer n => exact readValue_whole fuel depth hv hc rest
  | array items | object members => cases hv

/-! ### Members -/

theorem readMembers_last (fuel depth : Nat) (before : List (Option String × Source)) (k : String)
    {v : Json} (hv : v.IsPlain) (rest : List Char) :
    readMembers (fuel + 2) depth before (quote k ++ ':' :: v.render ++ '\x7d' :: rest) =
      (.object true ((some k, .ofJson v) :: before).reverse, some rest) := by
  rw [List.append_assoc, quote_append, readMembers, skipSpace_cons (by decide)]
  simp only [readString_quote, List.cons_append, skipSpace_cons (c := ':') (by decide),
    readValue_plain _ _ hv (.inr (.inr rfl)), skipSpace_cons (c := '\x7d') (by decide)]

theorem readMembers_next (fuel depth : Nat) (before : List (Option String × Source)) (k : String)
    {v : Json} (hv : v.IsPlain) (rest : List Char) :
    readMembers (fuel + 2) depth before (quote k ++ ':' :: v.render ++ ',' :: rest) =
      readMembers (fuel + 1) depth ((some k, .ofJson v) :: before) rest := by
  rw [List.append_assoc, quote_append, readMembers, skipSpace_cons (by decide)]
  simp only [readString_quote, List.cons_append, skipSpace_cons (c := ':') (by decide),
    readValue_plain _ _ hv (.inl rfl), skipSpace_cons (c := ',') (by decide)]

/-- The members of an object of plain values are read back in order. -/
theorem readMembers_renderMembers {fuel : Nat} {members : List (String × Json)} (hne : members ≠ [])
    (h : ∀ m ∈ members, m.2.IsPlain) (hfuel : members.length < fuel) (depth : Nat)
    (before : List (Option String × Source)) (rest : List Char) :
    readMembers fuel depth before (renderMembers members ++ '\x7d' :: rest) =
      (.object true (before.reverse ++ ofMembers members), some rest) := by
  induction members generalizing fuel before with
  | nil => exact absurd rfl hne
  | cons m members ih =>
    obtain ⟨hv, hmembers⟩ := List.forall_mem_cons.mp h
    obtain ⟨k, v⟩ := m
    rw [List.length_cons] at hfuel
    obtain ⟨fuel, rfl⟩ : ∃ n, fuel = n + 2 := Nat.exists_eq_add_of_le' (by omega)
    cases members with
    | nil =>
      refine (readMembers_last fuel depth before k hv rest).trans ?_
      rw [List.reverse_cons]
      rfl
    | cons m members =>
      rw [Json.renderMembers_cons, List.append_assoc, List.cons_append,
        readMembers_next fuel depth before k hv,
        ih (List.cons_ne_nil m members) hmembers (by omega), List.reverse_cons, List.append_assoc]
      rfl

/-- The text of the members starts with the quote of the first key. -/
theorem exists_renderMembers_eq {members : List (String × Json)} (hne : members ≠ []) :
    ∃ cs, renderMembers members = '"' :: cs := by
  match members with
  | [] => exact absurd rfl hne
  | [(k, v)] => exact ⟨_, quote_append k (':' :: v.render)⟩
  | (k, v) :: m :: members =>
    rw [Json.renderMembers_cons, List.append_assoc, quote_append]
    exact ⟨_, rfl⟩

theorem readValue_object (fuel depth : Nat) (cs : List Char) :
    readValue (fuel + 1) depth ('\x7b' :: '"' :: cs) =
      limitDepth depth (readMembers fuel (depth + 1) [] ('"' :: cs)) := by
  rw [readValue, skipSpace_cons (by decide)]
  simp only [skipSpace_cons (c := '"') (by decide)]
  rw [if_neg (by decide), if_neg (by decide), if_pos trivial]
  rfl

/-- An object of plain values is read back from its text, which is read to its end. -/
theorem ofText_render {members : List (String × Json)} (h : ∀ m ∈ members, m.2.IsPlain) :
    ofText (Json.render (.object members)) = (.object true (ofMembers members), true) := by
  by_cases hne : members = []
  · subst hne
    rfl
  have hlength := Json.length_le_length_renderMembers members
  have hfuel : members.length < 2 * (Json.render (.object members)).length + 1 := by
    rw [Json.render, List.length_append, List.length_cons, List.length_singleton]
    omega
  have hread := readMembers_renderMembers hne h hfuel 1 [] []
  obtain ⟨cs, hcs⟩ := exists_renderMembers_eq hne
  -- The reader looks at what follows the brace, to tell an empty object from one with members.
  rw [Json.render, hcs] at hread ⊢
  simp only [List.cons_append] at hread ⊢
  rw [ofText, readValue_object, hread]
  rfl

/-! ### Objects -/

/-- A member of a new key is added. -/
theorem perm_insertMember {key : String} {met : List (String × Json)} (h : ∀ m ∈ met, m.1 ≠ key)
    (value : Json) : (Json.insertMember key value met).Perm ((key, value) :: met) := by
  induction met with
  | nil => exact .refl _
  | cons m met ih =>
    obtain ⟨k, v⟩ := m
    have hne : key ≠ k := (h (k, v) List.mem_cons_self).symm
    rw [Json.insertMember]
    by_cases hlt : key < k
    · rw [if_pos hlt]
    · rw [if_neg hlt, if_neg hne]
      have hrest := ih fun m hm ↦ h m (List.mem_cons_of_mem _ hm)
      exact (hrest.cons (k, v)).trans (.swap _ _ _)

/-- Members under different keys are all members of the object that they are put into. -/
theorem perm_foldl_insertMember {members met : List (String × Json)}
    (h : (met.map (·.1) ++ members.map (·.1)).Nodup) :
    (members.foldl (fun ms m ↦ Json.insertMember m.1 m.2 ms) met).Perm (met ++ members) := by
  induction members generalizing met with
  | nil => rw [List.append_nil, List.foldl_nil]
  | cons m members ih =>
    obtain ⟨k, v⟩ := m
    have hnew : ∀ m ∈ met, m.1 ≠ k := by
      rintro m hm rfl
      have hdisjoint := (List.nodup_append.mp h).2.2
      exact hdisjoint m.1 (List.mem_map_of_mem hm) m.1 List.mem_cons_self rfl
    have hperm := perm_insertMember hnew v
    have hnodup : ((Json.insertMember k v met).map (·.1) ++ members.map (·.1)).Nodup := by
      have hkeys := (hperm.map (·.1)).append_right (members.map (·.1))
      rw [hkeys.nodup_iff]
      exact (List.perm_middle.nodup_iff).mp h
    rw [List.foldl_cons]
    exact (ih hnodup).trans ((hperm.append_right _).trans List.perm_middle.symm)

/-- Plain values that were read are put into an object one by one. -/
theorem toMembers?_ofMembers_of_isPlain {members met : List (String × Json)}
    (h : ∀ m ∈ members, m.2.IsPlain) :
    toMembers? met (ofMembers members) =
      some (members.foldl (fun ms m ↦ Json.insertMember m.1 m.2 ms) met) := by
  induction members generalizing met with
  | nil => rfl
  | cons m members ih =>
    obtain ⟨hv, hmembers⟩ := List.forall_mem_cons.mp h
    obtain ⟨k, v⟩ := m
    have hvalue : (ofJson v).toJson? = some v := by
      cases v with
      | null | boolean | string | number => rfl
      | array items | object members => cases hv
    rw [ofMembers, toMembers?, hvalue]
    exact ih hmembers

/-- The value that a text is, if it is nothing but the text of one value. -/
def parse? (cs : List Char) : Option Json :=
  match ofText cs with
  | (source, true) => source.toJson?
  | (_, false) => none

/-- The text of an object of plain values is that of an object with these values. -/
theorem exists_parse?_render {members : List (String × Json)} (h : ∀ m ∈ members, m.2.IsPlain)
    (hkeys : (members.map (·.1)).Nodup) :
    ∃ ms, parse? (Json.render (.object members)) = some (.object ms) ∧ ms.Perm members := by
  refine ⟨_, ?_, @perm_foldl_insertMember members [] hkeys⟩
  rw [parse?, ofText_render h]
  simp only [toJson?, toMembers?_ofMembers_of_isPlain h, Option.map_some]

end Source

end SamplingFrame
