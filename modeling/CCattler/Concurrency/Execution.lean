import CCattler.Concurrency.Program

/-! # Programs in an uncertain environment

An environment chooses the answers to the calls of a program. What a program ensures
holds at the end of every run; a recorded environment also keeps the calls.
-/

namespace Concurrency

open List

/-- The answers an environment can give to a call in a state, and the states
that follow them. -/
abbrev Environment (Call : Type) (Reply : Call → Type) (State : Type) : Type :=
  State → (request : Call) → Reply request → State → Prop

namespace Proc

variable {Call State Result Second : Type} {Reply : Call → Type}

section Runs

variable (environment : Environment Call Reply State)

/-- The program can go from one state to another and return the result. -/
def Runs : Proc Call Reply Result → State → Result → State → Prop
  | .ret found, state, result, final => found = result ∧ state = final
  | .call request next, state, result, final =>
    ∃ reply middle, environment state request reply middle ∧ (next reply).Runs middle result final

/-- Every run from the state ends with the postcondition. -/
def Ensures (program : Proc Call Reply Result) (post : Result → State → Prop)
    (state : State) : Prop :=
  ∀ result final, program.Runs environment state result final → post result final

end Runs

section Rules

variable {environment : Environment Call Reply State}

@[simp] theorem runs_request {request : Call} {reply : Reply request} {state final : State} :
    (Proc.request request : Proc Call Reply (Reply request)).Runs environment state reply final ↔
      environment state request reply final := by
  constructor
  · intro ⟨found, middle, hanswer, hreply, hfinal⟩
    subst hreply hfinal
    exact hanswer
  · intro hanswer
    exact ⟨reply, final, hanswer, rfl, rfl⟩

variable {rest : Result → Proc Call Reply Second} {first : Proc Call Reply Result}

theorem runs_bind {state final : State} {result : Second} :
    (first >>= rest).Runs environment state result final ↔
      ∃ found middle, first.Runs environment state found middle ∧
        (rest found).Runs environment middle result final := by
  induction first generalizing state with
  | ret found =>
    constructor
    · intro h
      exact ⟨found, state, ⟨rfl, rfl⟩, h⟩
    · intro ⟨_, _, ⟨hfound, hstate⟩, h⟩
      subst hfound hstate
      exact h
  | call request next ih =>
    constructor
    · intro ⟨reply, after, hanswer, hnext⟩
      obtain ⟨found, middle, hfound, hrest⟩ := ih reply |>.mp hnext
      exact ⟨found, middle, ⟨reply, after, hanswer, hfound⟩, hrest⟩
    · intro ⟨found, middle, ⟨reply, after, hanswer, hfound⟩, hrest⟩
      exact ⟨reply, after, hanswer, ih reply |>.mpr ⟨found, middle, hfound, hrest⟩⟩

variable {state : State} {program : Proc Call Reply Result}

theorem ensures_pure {result : Result} {post : Result → State → Prop} (h : post result state) :
    (pure result : Proc Call Reply Result).Ensures environment post state := by
  intro _ _ ⟨hresult, hfinal⟩
  subst hresult hfinal
  exact h

/-- The rule for a single call. -/
theorem ensures_request {request : Call} {post : Reply request → State → Prop}
    (h : ∀ reply final, environment state request reply final → post reply final) :
    (Proc.request request : Proc Call Reply (Reply request)).Ensures environment post state :=
  fun reply final hrun => h reply final (runs_request.mp hrun)

theorem Ensures.bind {post : Second → State → Prop} (h : first.Ensures environment
      (fun found => (rest found).Ensures environment post) state) :
    (first >>= rest).Ensures environment post state := by
  intro result final hrun
  obtain ⟨found, middle, hfirst, hrest⟩ := runs_bind.mp hrun
  exact h found middle hfirst result final hrest

theorem Ensures.mono {post weaker : Result → State → Prop}
    (h : program.Ensures environment post state)
    (himp : ∀ result final, post result final → weaker result final) :
    program.Ensures environment weaker state :=
  fun result final hrun => himp result final (h result final hrun)

theorem Ensures.and {first second : Result → State → Prop}
    (hfirst : program.Ensures environment first state)
    (hsecond : program.Ensures environment second state) :
    program.Ensures environment (fun result final => first result final ∧ second result final)
      state :=
  fun result final hrun => ⟨hfirst result final hrun, hsecond result final hrun⟩

/-- The rule for sequencing. -/
theorem Ensures.seq {middle : Result → State → Prop} {post : Second → State → Prop}
    (hfirst : first.Ensures environment middle state)
    (h : ∀ found after, middle found after → (rest found).Ensures environment post after) :
    (first >>= rest).Ensures environment post state :=
  .bind (hfirst.mono h)

theorem Runs.of_narrower {wider : Environment Call Reply State}
    (h : ∀ state request reply final, environment state request reply final →
      wider state request reply final)
    {result : Result} {final : State}
    (hrun : program.Runs environment state result final) :
    program.Runs wider state result final := by
  induction program generalizing state with
  | ret found => exact hrun
  | call request next ih =>
    obtain ⟨reply, middle, hanswer, hnext⟩ := hrun
    exact ⟨reply, middle, h state request reply middle hanswer, ih reply hnext⟩

theorem Calls.of_bind {allowed : Call → Prop} (h : (first >>= rest).Calls allowed) {found : Result}
    {final : State} (hrun : first.Runs environment state found final) :
    (rest found).Calls allowed := by
  induction first generalizing state with
  | ret result =>
    obtain ⟨rfl, -⟩ := hrun
    exact h
  | call request next ih =>
    obtain ⟨reply, _, -, hnext⟩ := hrun
    exact ih reply (h.2 reply) hnext

/-- The invariant rule for a program's calls. -/
theorem Calls.ensures {allowed : Call → Prop} (h : program.Calls allowed) {keeps : State → Prop}
    (hkeeps : ∀ state request reply final, allowed request →
      environment state request reply final → keeps state → keeps final)
    (hstate : keeps state) :
    program.Ensures environment (fun _ => keeps) state := by
  intro _ final hrun
  induction program generalizing state with
  | ret found =>
    obtain ⟨-, hfinal⟩ := hrun
    exact hfinal ▸ hstate
  | call request next ih =>
    obtain ⟨reply, middle, hanswer, hnext⟩ := hrun
    exact ih reply (h.2 reply) (hkeeps state request reply middle h.1 hanswer hstate) hnext

theorem Calls.mono {allowed wider : Call → Prop} (h : program.Calls allowed)
    (himp : ∀ request, allowed request → wider request) :
    program.Calls wider := by
  induction program with
  | ret found => exact trivial
  | call request next ih => exact ⟨himp request h.1, fun reply => ih reply (h.2 reply)⟩

section

variable {post : Result → Prop} (h : program.Yields post)
include h

theorem Yields.of_runs {result : Result} {final : State}
    (hrun : program.Runs environment state result final) : post result := by
  induction program generalizing state with
  | ret found =>
    obtain ⟨hresult, -⟩ := hrun
    exact hresult ▸ h
  | call request next ih =>
    obtain ⟨reply, _, -, hnext⟩ := hrun
    exact ih reply (h reply) hnext

theorem Yields.ensures : program.Ensures environment (fun result _ => post result) state :=
  fun _ _ hrun => h.of_runs hrun

end

/-- Evaluation against a handler is a run. -/
theorem runs_eval {perform : (request : Call) → State → Reply request × State}
    (hperform : ∀ request state,
      environment state request (perform request state).1 (perform request state).2)
    (program : Proc Call Reply Result) (state : State) :
    program.Runs environment state (program.eval perform state).1
      (program.eval perform state).2 := by
  induction program generalizing state with
  | ret found => exact ⟨rfl, rfl⟩
  | call request next ih => exact ⟨_, _, hperform request state, ih _ _⟩

end Rules

end Proc

/-! ## Recorded runs -/

/-- A state together with the calls made so far and their answers. -/
structure Recorded (Call : Type) (Reply : Call → Type) (State : Type) where
  state : State
  history : List (Sigma Reply)

variable {Call State : Type} {Reply : Call → Type}

/-- The environment that answers in the same way and keeps every call. -/
def Environment.recorded (environment : Environment Call Reply State) :
    Environment Call Reply (Recorded Call Reply State) :=
  fun before request reply after =>
    environment before.state request reply after.state ∧
      after.history = before.history ++ [⟨request, reply⟩]

namespace Proc

variable {environment : Environment Call Reply State} {Result : Type}
  {program : Proc Call Reply Result} {initial final : Recorded Call Reply State} {result : Result}
  {allowed : Call → Prop}

/-- A recorded run only adds to the history, and it adds the calls of the program. -/
theorem Calls.recorded (h : program.Calls allowed)
    (hrun : program.Runs environment.recorded initial result final) :
    ∃ added, final.history = initial.history ++ added ∧ ∀ entry ∈ added, allowed entry.1 := by
  induction program generalizing initial with
  | ret found =>
    obtain ⟨-, hfinal⟩ := hrun
    subst hfinal
    exact ⟨[], by simp, by simp⟩
  | call request next ih =>
    obtain ⟨reply, _, ⟨-, hhistory⟩, hnext⟩ := hrun
    obtain ⟨added, hadded, hallowed⟩ := ih reply (h.2 reply) hnext
    refine ⟨⟨request, reply⟩ :: added, ?_, ?_⟩
    · rw [hadded, hhistory]
      simp
    · intro entry hentry
      rcases mem_cons.mp hentry with rfl | hmem
      · exact h.1
      · exact hallowed entry hmem

theorem calls_all (program : Proc Call Reply Result) : program.Calls (fun _ => True) := by
  induction program with
  | ret found => exact trivial
  | call request next ih => exact ⟨trivial, ih⟩

section

variable (hrun : program.Runs environment.recorded initial result final) {entry : Sigma Reply}
include hrun

theorem Runs.mem_history (h : entry ∈ initial.history) : entry ∈ final.history := by
  obtain ⟨added, hadded, -⟩ := (calls_all program).recorded hrun
  rw [hadded]
  exact mem_append_left added h

theorem Runs.answered (h : entry ∈ final.history) :
    entry ∈ initial.history ∨ ∃ before after, environment before entry.1 entry.2 after := by
  induction program generalizing initial with
  | ret found =>
    obtain ⟨-, hfinal⟩ := hrun
    subst hfinal
    exact Or.inl h
  | call request next ih =>
    obtain ⟨reply, middle, ⟨hanswer, hhistory⟩, hnext⟩ := hrun
    rcases ih reply hnext with hmiddle | hanswered
    · rw [hhistory] at hmiddle
      rcases mem_append.mp hmiddle with hinitial | hnew
      · exact Or.inl hinitial
      · rw [mem_singleton.mp hnew]
        exact Or.inr ⟨initial.state, middle.state, hanswer⟩
    · exact Or.inr hanswered

end

theorem Calls.allowed_of_mem (h : program.Calls allowed)
    (hrun : program.Runs environment.recorded initial result final) {entry : Sigma Reply}
    (hentry : entry ∈ final.history) : entry ∈ initial.history ∨ allowed entry.1 := by
  obtain ⟨_, hadded, hallowed⟩ := h.recorded hrun
  rw [hadded] at hentry
  exact (mem_append.mp hentry).imp_right (hallowed entry)

theorem Runs.grows (hrun : program.Runs environment.recorded initial result final) :
    ∃ added, final.history = initial.history ++ added := by
  obtain ⟨added, hadded, -⟩ := (calls_all program).recorded hrun
  exact ⟨added, hadded⟩

end Proc

/-! ## What a stretch of a run shows -/

/-- Between two points of a run an entry of the kind was added. -/
def Recorded.Shows (kind : Sigma Reply → Prop) (initial final : Recorded Call Reply State) : Prop :=
  ∃ added, final.history = initial.history ++ added ∧ ∃ entry ∈ added, kind entry

namespace Proc

variable {environment : Environment Call Reply State} {Result Second : Type}
  {program : Proc Call Reply Result} {initial : Recorded Call Reply State}
  {kind : Sigma Reply → Prop}

/-- A call shows itself in the history. -/
theorem ensures_request_shows {request : Call} {wanted : Reply request → Prop}
    (h : ∀ reply, wanted reply → kind ⟨request, reply⟩) :
    (Proc.request request : Proc Call Reply (Reply request)).Ensures environment.recorded
      (fun reply final => wanted reply → Recorded.Shows kind initial final) initial := by
  apply ensures_request
  intro reply final ⟨_, hhistory⟩ hwanted
  exact ⟨_, hhistory, _, mem_singleton_self _, h reply hwanted⟩

theorem Ensures.shows_later {first : Proc Call Reply Result}
    {rest : Result → Proc Call Reply Second} {wanted : Second → Prop}
    {post : Result → Recorded Call Reply State → Prop}
    (hfirst : first.Ensures environment.recorded post initial)
    (h : ∀ found middle, post found middle → (rest found).Ensures environment.recorded
      (fun result final => wanted result → Recorded.Shows kind middle final) middle) :
    (first >>= rest).Ensures environment.recorded
      (fun result final => wanted result → Recorded.Shows kind initial final) initial := by
  intro result final hrun hwanted
  obtain ⟨found, middle, hfound, hrest⟩ := runs_bind.mp hrun
  obtain ⟨earlier, hearlier⟩ := hfound.grows
  obtain ⟨added, hadded, entry, hentry, hkind⟩ :=
    h found middle (hfirst found middle hfound) result final hrest hwanted
  refine ⟨earlier ++ added, ?_, entry, mem_append_right earlier hentry, hkind⟩
  rw [hadded, hearlier, append_assoc]

theorem shows_of_shown {middle : Recorded Call Reply State} (h : Recorded.Shows kind initial middle)
    (program : Proc Call Reply Result) :
    program.Ensures environment.recorded (fun _ final => Recorded.Shows kind initial final)
      middle := by
  intro _ final hrun
  obtain ⟨added, hadded, entry, hentry, hkind⟩ := h
  obtain ⟨later, hlater⟩ := hrun.grows
  refine ⟨added ++ later, ?_, entry, mem_append_left later hentry, hkind⟩
  rw [hlater, hadded, append_assoc]

end Proc

end Concurrency
