import SamplingFrame.Settings.Path

/-!
# What a write leaves at a place

A configuration is made by writing values at the ends of paths, one over the other. A place is a
sequence of keys, each in a table. What is found at a place in the end is what the last write that
reaches it has there, and if none does, what was there before. That holds of every place whose
tables are only ever written as tables.
-/

namespace SamplingFrame

namespace Setting

/-- A value as a setting may have it: tables and lists are none. -/
def plain : Setting → Setting
  | .table _ | .list _ => .nil
  | v => v

theorem toText?_plain (v : Setting) : v.plain.toText? = v.toText? := by
  cases v <;> rfl

theorem toCount?_plain (v : Setting) : v.plain.toCount? = v.toCount? := by
  cases v <;> rfl

theorem plain_override (earlier later : Setting) : (earlier.override later).plain = later.plain := by
  cases later with
  | table es => rw [override]; rfl
  | _ => rw [override]; nofun

/-- Whether a value is a table. -/
def isTable : Setting → Bool
  | .table _ => true
  | _ => false

/-- The value of a key that was set. -/
theorem find?_put_self (key : String) (value : Setting) (es : List (String × Setting)) :
    find? key (put key value es) = some value := by
  induction es with
  | nil => simp [put, find?]
  | cons e es ih =>
    obtain ⟨k, v⟩ := e
    rw [put]
    by_cases h : k = key
    · simp [h, find?]
    · rw [if_neg h]
      simpa [find?, h] using ih

/-- The values of the other keys stay as they are. -/
theorem find?_put_of_ne {key other : String} (h : key ≠ other) (value : Setting)
    (es : List (String × Setting)) : find? other (put key value es) = find? other es := by
  induction es with
  | nil => simp [put, find?, h]
  | cons e es ih =>
    obtain ⟨k, v⟩ := e
    rw [put]
    by_cases hk : k = key
    · simp [hk, find?, h]
    · rw [if_neg hk]
      by_cases ho : k = other
      · simp [find?, ho]
      · simpa [find?, ho] using ih

end Setting

namespace Settings

open Setting

/-- What stands at a place of a configuration. -/
def valueAt? : List String → Setting → Option Setting
  | [], v => some v.plain
  | name :: place, v => (find? name v.entries).bind (valueAt? place)

/-- What a value that is written as a whole gives to a place in it: that of the last entry that
gives something. -/
def valueIn? : List String → Setting → Option Setting
  | [], v => some v.plain
  | name :: place, v =>
    v.entries.reverse.findSome? fun e ↦ if e.1 = name then valueIn? place e.2 else none

/-- What a write at the end of a path gives to a place. Where the path leads on beyond the place, a
table or a list comes to stand there, which is no value. -/
def given? : List String → List Step → Setting → Option Setting
  | place, [], v => valueIn? place v
  | [], _ :: _, _ => some .nil
  | name :: place, .key k :: path, v => if k = name then given? place path v else none
  | _ :: _, .index _ :: _, _ => none

/-- Whether a value that is written as a whole leaves tables above a place. -/
def KeepsTables : List String → Setting → Prop
  | [], _ => True
  | name :: place, v => ∃ es, v = .table es ∧ ∀ e ∈ es, e.1 = name → KeepsTables place e.2

/-- Whether a write at the end of a path leaves tables above a place. -/
def Keeps : List String → List Step → Setting → Prop
  | place, [], v => KeepsTables place v
  | [], _ :: _, _ => True
  | name :: place, .key k :: path, v => k = name → Keeps place path v
  | _ :: _, .index _ :: _, _ => False

variable {name : String} {place : List String} {v : Setting}

theorem valueAt?_table (name : String) (place : List String) (es : List (String × Setting)) :
    valueAt? (name :: place) (.table es) = (find? name es).bind (valueAt? place) := rfl

/-- What stands below a key that was set. -/
theorem valueAt?_put_self (name : String) (place : List String) (x : Setting)
    (es : List (String × Setting)) :
    valueAt? (name :: place) (.table (put name x es)) = valueAt? place x := by
  rw [valueAt?_table, find?_put_self, Option.bind_some]

theorem valueAt?_put_of_ne {k : String} (h : k ≠ name) (place : List String) (x : Setting)
    (es : List (String × Setting)) :
    valueAt? (name :: place) (.table (put k x es)) = valueAt? (name :: place) (.table es) := by
  rw [valueAt?_table, find?_put_of_ne h, valueAt?_table]

/-- Nothing stands below a key that is missing, but the place of nothing itself counts. -/
theorem or_valueAt?_getD {x? : Option Setting} (h : place = [] → x?.isSome = true)
    (es : List (String × Setting)) :
    x?.or (valueAt? place ((find? name es).getD .nil)) =
      x?.or ((find? name es).bind (valueAt? place)) := by
  cases find? name es with
  | some w => rfl
  | none =>
    cases place with
    | nil =>
      obtain ⟨x, hx⟩ := Option.isSome_iff_exists.mp (h rfl)
      rw [hx]
      rfl
    | cons n place => rfl

/-- Every write from a place on gives something to it. -/
theorem isSome_given?_nil (path : List Step) (v : Setting) (h : place = []) :
    (given? place path v).isSome = true := by
  subst h
  cases path <;> rfl

/-- Entries that are laid over a table, one by one. -/
theorem valueAt?_overrideAll {es : List (String × Setting)}
    (ih : ∀ e ∈ es, e.1 = name → ∀ earlier : Setting,
      valueAt? place (earlier.override e.2) = (valueIn? place e.2).or (valueAt? place earlier))
    (earlier : List (String × Setting)) :
    valueAt? (name :: place) (.table (overrideAll earlier es)) =
      (valueIn? (name :: place) (.table es)).or (valueAt? (name :: place) (.table earlier)) := by
  induction es generalizing earlier with
  | nil => rfl
  | cons e es hes =>
    obtain ⟨k, v⟩ := e
    have hfirst : valueAt? (name :: place)
        (.table (put k (((find? k earlier).getD .nil).override v) earlier)) =
          (if k = name then valueIn? place v else none).or
            (valueAt? (name :: place) (.table earlier)) := by
      by_cases hk : k = name
      · subst hk
        have hnil : place = [] → (valueIn? place v).isSome = true := by
          rintro rfl
          rfl
        rw [valueAt?_put_self, ih _ List.mem_cons_self rfl, if_pos rfl, or_valueAt?_getD hnil,
          valueAt?_table]
      · rw [valueAt?_put_of_ne hk, if_neg hk, Option.none_or]
    -- The later entries give first, so the last entry of a key is the one that counts.
    rw [overrideAll, hes fun e he ↦ ih e (List.mem_cons_of_mem _ he), hfirst, ← Option.or_assoc]
    refine congrArg (Option.or · _) ?_
    rw [valueIn?, valueIn?, entries, entries, List.reverse_cons, List.findSome?_append,
      List.findSome?_singleton]

/-- What a value leaves at a place, when it is laid over an earlier one as a whole. -/
theorem valueAt?_override (h : KeepsTables place v) (earlier : Setting) :
    valueAt? place (earlier.override v) = (valueIn? place v).or (valueAt? place earlier) := by
  induction place generalizing v earlier with
  | nil => rw [valueAt?, plain_override, valueIn?, Option.some_or]
  | cons name place ih =>
    obtain ⟨es, rfl, hes⟩ := h
    rw [override, valueAt?_overrideAll fun e he hname ↦ ih (hes e he hname)]
    rfl

/-- What a write leaves at a place. -/
theorem valueAt?_setAt {path : List Step} (h : Keeps place path v) (tree : Setting) :
    valueAt? place (setAt v path tree) = (given? place path v).or (valueAt? place tree) := by
  induction path generalizing place tree with
  | nil =>
    have htables : KeepsTables place v := by simpa only [Keeps] using h
    rw [setAt, valueAt?_override htables, given?]
  | cons step path ih =>
    cases place with
    | nil => cases step <;> rfl
    | cons name place =>
      cases step with
      | index i => exact absurd h id
      | key k =>
        rw [setAt, given?]
        by_cases hk : k = name
        · subst hk
          rw [valueAt?_put_self, ih (h rfl), if_pos rfl, or_valueAt?_getD (isSome_given?_nil path v)]
          rfl
        · rw [valueAt?_put_of_ne hk, if_neg hk, Option.none_or]
          rfl

end Settings

end SamplingFrame
