import Mathlib.Data.List.Basic

/-!
# Sessions that are over

A service takes up events one after another, and some of them are lines of one client.
When the session of that client is over these lines do nothing, and everything goes on
as if the client had sent none of them. Nothing else is asked of the service.
-/
namespace BrokerCluster

variable {σ ε ω : Type} (step : σ → ε → σ × List ω)

def runAll : σ → List ε → σ × List ω
  | state, [] => (state, [])
  | state, event :: rest =>
    let (after, outputs) := step state event
    let (last, later) := runAll after rest
    (last, outputs ++ later)

theorem runAll_cons (state : σ) (event : ε) (rest : List ε) :
    runAll step state (event :: rest) = ((runAll step (step state event).1 rest).1,
      (step state event).2 ++ (runAll step (step state event).1 rest).2) := rfl

/-- The session of a client is over: whatever happens, no line of it is processed or answered, and
whatever follows is the same as if `ending`, the end of its input, had come instead of its lines. -/
structure SessionIsOver (isLine : ε → Bool) (ending : ε) (state : σ) : Prop where
  unread : ∀ later line, isLine line = true →
    step (runAll step state later).1 line = ((runAll step state later).1, [])
  ended : ∀ later, runAll step state later =
    runAll step state (ending :: later.filter fun event => !isLine event)

variable {step} {isLine : ε → Bool} {left : σ → Prop} {state : σ}

theorem left_runAll (hkeeps : ∀ state event, left state → left (step state event).1)
    (hleft : left state) (events : List ε) : left (runAll step state events).1 := by
  induction events generalizing state with
  | nil => exact hleft
  | cons event rest ih => exact ih (hkeeps state event hleft)

theorem runAll_filter (hkeeps : ∀ state event, left state → left (step state event).1)
    (hunread : ∀ state line, left state → isLine line = true → step state line = (state, []))
    (hleft : left state) (events : List ε) :
    runAll step state (events.filter fun event => !isLine event) = runAll step state events := by
  induction events generalizing state with
  | nil => rfl
  | cons event rest ih =>
    have hrest := ih (hkeeps state event hleft)
    cases hevent : isLine event with
    | true =>
      rw [hunread state event hleft hevent] at hrest
      rw [List.filter_cons_of_neg (by simp [hevent]), hrest, runAll_cons,
        hunread state event hleft hevent]
      rfl
    | false => rw [List.filter_cons_of_pos (by simp [hevent]), runAll_cons, runAll_cons, hrest]

/-- A session is over from a state in which its client has left, if no event brings the client back
and the end of its input does nothing more. -/
theorem sessionIsOver_of_left {ending : ε}
    (hkeeps : ∀ state event, left state → left (step state event).1)
    (hunread : ∀ state line, left state → isLine line = true → step state line = (state, []))
    (hleft : left state) (hending : step state ending = (state, [])) :
    SessionIsOver step isLine ending state where
  unread later line := hunread _ line (left_runAll hkeeps hleft later)
  ended later := by
    rw [runAll_cons, hending, runAll_filter hkeeps hunread hleft]
    rfl

end BrokerCluster
