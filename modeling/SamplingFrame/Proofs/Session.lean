import SamplingFrame.Frame
import SamplingFrame.Proofs.Evaluation

/-!
# Sessions with a compiler

A compiler answers calls one after the other. The frames that it compiles are numbered from one on,
without a gap: what fails, and what only asks for the rules of a frame, leaves the compiler as it
is. Apart from its number, an answer depends on the frame alone.
-/

namespace SamplingFrame

namespace Compiler

/-- A call to a compiler: a frame is to be compiled, or only its rules. -/
inductive Call where
  | compile (frame : Frame)
  | compileRules (frame : Frame)

/-- What a call has come to. -/
inductive Answer where
  | frame (result : Except Fault CompiledFrame)
  | rules (result : Except Fault (Predicate Test))

/-- The number of a frame, if an answer is one. -/
def Answer.version? : Answer → Option Nat
  | .frame (.ok compiled) => some compiled.version
  | .frame (.error _) | .rules _ => none

/-- Answers a call. -/
def answer (c : Compiler) : Call → Answer × Compiler
  | .compile frame => (.frame (c.compile frame).1, (c.compile frame).2)
  | .compileRules frame => (.rules frame.selection.predicate, c)

/-- Answers calls one after the other. -/
def session (c : Compiler) : List Call → List Answer × Compiler
  | [] => ([], c)
  | call :: calls =>
    let (first, next) := c.answer call
    let (rest, last) := next.session calls
    (first :: rest, last)

/-! ### One call -/

/-- How a compiler has to answer a call, and what it is afterwards. -/
inductive Answers (c : Compiler) : Call → Answer → Compiler → Prop
  /-- Without columns a frame is refused, whatever its rules are. -/
  | noColumns {frame : Frame} (h : frame.columns = []) :
    Answers c (.compile frame) (.frame (.error .noOutputFields)) c
  /-- With columns a frame has the fault of its rules. -/
  | fault {frame : Frame} {fault : Fault} (h : frame.columns ≠ [])
    (hrules : frame.selection.predicate = .error fault) :
    Answers c (.compile frame) (.frame (.error fault)) c
  /-- A frame that compiles has the predicate of its rules, and the next number. -/
  | success {frame : Frame} {p : Predicate Test} {compiled : CompiledFrame}
    (h : frame.columns ≠ []) (hrules : frame.selection.predicate = .ok p)
    (hframe : compiled.frame = frame)
    (hsame : ∀ r, compiled.predicate.matches? r = p.matches? r ∧
      compiled.predicate.reads r = p.reads r)
    (hrequired : compiled.required = frame.selection.fields)
    (hversion : compiled.version = c.version + 1) :
    Answers c (.compile frame) (.frame (.ok compiled)) ⟨c.version + 1⟩
  | rules {frame : Frame} :
    Answers c (.compileRules frame) (.rules frame.selection.predicate) c

theorem answers_answer (c : Compiler) (call : Call) :
    c.Answers call (c.answer call).1 (c.answer call).2 := by
  cases call with
  | compileRules frame => exact .rules
  | compile frame =>
    by_cases hcolumns : frame.columns = []
    · have hrefused : c.compile frame = (.error .noOutputFields, c) := by
        rw [compile, Frame.compile, hcolumns]
        rfl
      rw [answer, hrefused]
      exact .noColumns hcolumns
    · have hempty : frame.columns.isEmpty = false := by simpa using hcolumns
      cases hrules : frame.selection.predicate with
      | error fault =>
        have hfault : c.compile frame = (.error fault, c) := by
          simp [compile, Frame.compile, hempty, hrules, bind, Except.bind]
        rw [answer, hfault]
        exact .fault hcolumns hrules
      | ok p =>
        have hok : c.compile frame =
            (.ok ⟨frame, p, frame.selection.fields, c.version + 1⟩, ⟨c.version + 1⟩) := by
          simp [compile, Frame.compile, hempty, hrules, bind, Except.bind, pure, Except.pure]
        rw [answer, hok]
        exact .success hcolumns hrules rfl (fun _ ↦ ⟨rfl, rfl⟩) rfl rfl

/-- An answer has the next number, or none, and the compiler counts just that. -/
theorem Answers.version {c next : Compiler} {call : Call} {answer : Answer}
    (h : c.Answers call answer next) :
    (answer.version? = some (c.version + 1) ∧ next.version = c.version + 1) ∨
      (answer.version? = none ∧ next = c) := by
  cases h with
  | noColumns h => exact .inr ⟨rfl, rfl⟩
  | fault h hrules => exact .inr ⟨rfl, rfl⟩
  | success h hrules hframe hsame hrequired hversion =>
    exact .inl ⟨congrArg some hversion, rfl⟩
  | rules => exact .inr ⟨rfl, rfl⟩

/-! ### All calls -/

theorem session_cons (c : Compiler) (call : Call) (calls : List Call) :
    c.session (call :: calls) =
      ((c.answer call).1 :: ((c.answer call).2.session calls).1,
        ((c.answer call).2.session calls).2) := rfl

theorem length_session (c : Compiler) (calls : List Call) :
    (c.session calls).1.length = calls.length := by
  induction calls generalizing c with
  | nil => rfl
  | cons call calls ih => rw [session_cons, List.length_cons, List.length_cons, ih]

/-- The calls of a session are answered by what those before them have left. -/
theorem session_append (c : Compiler) (before after : List Call) :
    c.session (before ++ after) =
      ((c.session before).1 ++ ((c.session before).2.session after).1,
        ((c.session before).2.session after).2) := by
  induction before generalizing c with
  | nil => rfl
  | cons call before ih => rw [List.cons_append, session_cons, session_cons, ih, List.cons_append]

/-- The numbers that are given in a session follow one another, and the last one is what the
compiler has counted. -/
theorem versions_session (c : Compiler) (calls : List Call) :
    ∃ n, (c.session calls).1.filterMap Answer.version? = List.range' (c.version + 1) n ∧
      (c.session calls).2.version = c.version + n := by
  induction calls generalizing c with
  | nil => exact ⟨0, rfl, rfl⟩
  | cons call calls ih =>
    obtain ⟨n, hrest, hlast⟩ := ih (c.answer call).2
    rw [session_cons]
    rcases (c.answers_answer call).version with ⟨hfirst, hnext⟩ | ⟨hfirst, hnext⟩
    · refine ⟨n + 1, ?_, ?_⟩
      · rw [List.filterMap_cons_some hfirst, hrest, hnext, List.range'_succ]
      · rw [hlast, hnext]
        omega
    · rw [hnext] at hrest hlast
      refine ⟨n, ?_, ?_⟩
      · rw [List.filterMap_cons_none hfirst, hnext, hrest]
      · rw [hnext, hlast]

/-- In a session with a new compiler the frames that compile are numbered from one on, and each call
is answered as if it were the only one, but for the number. -/
theorem session_numbers_successes (calls : List Call) :
    (new.session calls).1.length = calls.length ∧
    (new.session calls).1.filterMap Answer.version? =
      List.range' 1 (new.session calls).2.version ∧
    ∀ before call after, calls = before ++ call :: after →
      ∃ answer next, (new.session calls).1[before.length]? = some answer ∧
        (new.session before).2.Answers call answer next ∧
        (new.session (before ++ [call])).2 = next := by
  refine ⟨length_session new calls, ?_, ?_⟩
  · obtain ⟨n, hversions, hlast⟩ := versions_session new calls
    have hn : (new.session calls).2.version = n := hlast.trans (Nat.zero_add n)
    rw [hversions, hn]
    rfl
  · rintro before call after rfl
    refine ⟨_, _, ?_, (new.session before).2.answers_answer call, ?_⟩
    · have hle := Nat.le_of_eq (length_session new before)
      rw [session_append, session_cons, List.getElem?_append_right hle, length_session,
        Nat.sub_self, List.getElem?_cons_zero]
    · rw [session_append]
      rfl

/-- A frame of one rule. -/
def frameOf (rule : Rule) (columns : List Field) : Frame :=
  ⟨"1", "sample", .ofRules [.first rule], columns, none⟩

/-- Two frames that compile, and between them calls that fail or that ask for rules only. -/
def mixed : List Call :=
  [.compile (frameOf (.isOne .employees) [.name]),
    .compile (frameOf (.isOne .registrationDate) []),
    .compileRules (frameOf (.isOne .registrationDate) [.name]),
    .compile (frameOf (.isOne .registrationDate) [.name]),
    .compileRules (frameOf (.isOne .regId) []), .compile (frameOf (.isOne .regId) [.name])]

theorem session_numbers_successes_mixed :
    (new.session mixed).1.filterMap Answer.version? = [1, 2] ∧
      ∃ answer next, (new.session mixed).1[5]? = some answer ∧
        (new.session (mixed.take 5)).2.Answers
          (.compile (frameOf (.isOne .regId) [.name])) answer next ∧ next = ⟨2⟩ := by
  obtain ⟨-, hversions, hanswers⟩ := session_numbers_successes mixed
  obtain ⟨answer, next, hanswer, hnext, hlast⟩ := hanswers (mixed.take 5) _ [] rfl
  exact ⟨hversions, answer, next, hanswer, hnext, hlast.symm⟩

end Compiler

end SamplingFrame
