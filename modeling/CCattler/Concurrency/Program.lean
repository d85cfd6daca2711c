import CCattler.Concurrency.RelyGuarantee

/-! # Programs that run alone

Run alone, a program is a function of the object's state. Which calls it can make and
which results it can return is a property of the program itself.
-/

namespace Concurrency.Proc

variable {Call State Result Second : Type} {Reply : Call → Type}

/-- Run a program against an object. -/
def eval (perform : (request : Call) → State → Reply request × State) :
    Proc Call Reply Result → State → Result × State
  | .ret result, state => (result, state)
  | .call request next, state =>
    (next (perform request state).1).eval perform (perform request state).2

section Running

variable (perform : (request : Call) → State → Reply request × State)

@[simp] theorem eval_pure (result : Result) (state : State) :
    (pure result : Proc Call Reply Result).eval perform state = (result, state) := rfl

@[simp] theorem eval_bind (first : Proc Call Reply Result)
    (rest : Result → Proc Call Reply Second) (state : State) :
    (first >>= rest).eval perform state =
      (rest (first.eval perform state).1).eval perform (first.eval perform state).2 := by
  induction first generalizing state with
  | ret result => rfl
  | call request next ih => exact ih _ _

@[simp] theorem eval_request (request : Call) (state : State) :
    (Proc.request request : Proc Call Reply (Reply request)).eval perform state =
      perform request state := rfl

end Running

/-- Whatever the replies, the program makes no other calls. -/
def Calls (allowed : Call → Prop) : Proc Call Reply Result → Prop
  | .ret _ => True
  | .call request next => allowed request ∧ ∀ reply, (next reply).Calls allowed

section Calls

variable {allowed : Call → Prop}

@[simp] theorem calls_pure (result : Result) :
    (pure result : Proc Call Reply Result).Calls allowed := trivial

theorem calls_request {request : Call} (h : allowed request) :
    (Proc.request request : Proc Call Reply (Reply request)).Calls allowed :=
  ⟨h, fun _ => trivial⟩

variable {first : Proc Call Reply Result}

theorem Calls.bind {rest : Result → Proc Call Reply Second} (hfirst : first.Calls allowed)
    (hrest : ∀ result, (rest result).Calls allowed) : (first >>= rest).Calls allowed := by
  induction first with
  | ret result => exact hrest result
  | call request next ih => exact ⟨hfirst.1, fun reply => ih reply (hfirst.2 reply)⟩

theorem Calls.bind_pure (h : first.Calls allowed) {value : Result → Second} :
    (first >>= fun result => pure (value result)).Calls allowed :=
  h.bind fun _ => calls_pure _

theorem Calls.eval_keeps {perform : (request : Call) → State → Reply request × State}
    {keeps : State → Prop} {program : Proc Call Reply Result} (h : program.Calls allowed)
    (hkeeps : ∀ request state, allowed request → keeps state → keeps (perform request state).2)
    {state : State} (hstate : keeps state) : keeps (program.eval perform state).2 := by
  induction program generalizing state with
  | ret result => exact hstate
  | call request next ih => exact ih _ (h.2 _) (hkeeps request state h.1 hstate)

end Calls

/-- The program makes only allowed calls. The instances follow the constructs of a program,
so that a walk through one is an instance search. -/
class Makes (allowed : Call → Prop) (program : Proc Call Reply Result) : Prop where
  calls : program.Calls allowed

section Makes

variable {allowed : Call → Prop} {first : Proc Call Reply Result}
  {rest : Result → Proc Call Reply Second}

instance (result : Result) : Makes allowed (ret result : Proc Call Reply Result) := ⟨trivial⟩

instance (result : Result) : Makes allowed (pure result : Proc Call Reply Result) := ⟨trivial⟩

instance (request : Call) (next : Reply request → Proc Call Reply Result)
    [hallowed : Fact (allowed request)] [hnext : ∀ reply, Makes allowed (next reply)] :
    Makes allowed (call request next) :=
  ⟨hallowed.out, fun reply => (hnext reply).calls⟩

instance [hfirst : Makes allowed first] [hrest : ∀ result, Makes allowed (rest result)] :
    Makes allowed (first >>= rest) :=
  ⟨hfirst.calls.bind fun result => (hrest result).calls⟩

theorem Makes.ite {condition : Prop} [Decidable condition] {second : Proc Call Reply Result}
    (hfirst : Makes allowed first) (hsecond : Makes allowed second) :
    Makes allowed (if condition then first else second) := by
  split
  · exact hfirst
  · exact hsecond

instance (condition : Prop) [Decidable condition] {second : Proc Call Reply Result}
    [hfirst : Makes allowed first] [hsecond : Makes allowed second] :
    Makes allowed (if condition then first else second) := Makes.ite hfirst hsecond

/-- For a result that the rest of the program distinguishes. -/
theorem Makes.seq [Makes allowed first] (h : ∀ result, Makes allowed (rest result)) :
    Makes allowed (first >>= rest) := inferInstance

instance : Fact True := ⟨trivial⟩

end Makes

/-- Whatever the replies, the result is as stated. -/
def Yields (post : Result → Prop) : Proc Call Reply Result → Prop
  | .ret result => post result
  | .call _ next => ∀ reply, (next reply).Yields post

section Yields

variable {post : Result → Prop}

theorem yields_pure {result : Result} (h : post result) :
    (pure result : Proc Call Reply Result).Yields post := h

theorem Yields.mono {weaker : Result → Prop} {program : Proc Call Reply Result}
    (h : program.Yields post) (himp : ∀ result, post result → weaker result) :
    program.Yields weaker := by
  induction program with
  | ret result => exact himp result h
  | call request next ih => exact fun reply => ih reply (h reply)

variable {rest : Result → Proc Call Reply Second} {first : Proc Call Reply Result}
  {middle : Result → Prop} {last : Second → Prop}

theorem Yields.bind (hfirst : first.Yields middle)
    (hrest : ∀ result, middle result → (rest result).Yields last) :
    (first >>= rest).Yields last := by
  induction first with
  | ret result => exact hrest result hfirst
  | call request next ih => exact fun reply => ih reply (hfirst reply)

theorem yields_bind (first : Proc Call Reply Result) (hrest : ∀ result, (rest result).Yields last) :
    (first >>= rest).Yields last := by
  induction first with
  | ret result => exact hrest result
  | call request next ih => exact fun reply => ih reply

theorem Calls.bind_of_yields {allowed : Call → Prop} (hcalls : first.Calls allowed)
    (hyields : first.Yields middle)
    (hrest : ∀ result, middle result → (rest result).Calls allowed) :
    (first >>= rest).Calls allowed := by
  induction first with
  | ret result => exact hrest result hyields
  | call request next ih => exact ⟨hcalls.1, fun reply => ih reply (hcalls.2 reply) (hyields reply)⟩

end Yields

end Concurrency.Proc
