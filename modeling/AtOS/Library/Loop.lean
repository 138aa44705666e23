import Mathlib.Tactic.TypeStar

/-! Loops over a list that thread a state and may stop early with an error. -/

namespace Loop

variable {Item State Error Value : Type*}

/-- Run the body for every item, up to the first error. -/
def forEach (body : Item → State → Except Error Unit × State) :
    List Item → State → Except Error Unit × State
  | [], state => (.ok (), state)
  | item :: rest, state =>
    match body item state with
    | (.ok (), after) => forEach body rest after
    | (.error error, after) => (.error error, after)

/-- No item leaves the state as it is. -/
@[simp] theorem forEach_nil (body : Item → State → Except Error Unit × State) (state : State) :
    forEach body [] state = (.ok (), state) := rfl

/-- What a call leaves behind, on success and on failure. -/
inductive Outcome (Done : Value → State → Prop) (Failed : Error → State → Prop) :
    Except Error Value × State → Prop where
  | done {value : Value} {after : State} (holds : Done value after) :
    Outcome Done Failed (.ok value, after)
  | failed {error : Error} {after : State} (holds : Failed error after) :
    Outcome Done Failed (.error error, after)

/-- Weaker conditions hold of the same outcome. -/
theorem Outcome.imp {Done Weaker : Value → State → Prop} {Failed Weakened : Error → State → Prop}
    {result : Except Error Value × State} (outcome : Outcome Done Failed result)
    (done : ∀ value after, Done value after → Weaker value after)
    (failed : ∀ error after, Failed error after → Weakened error after) :
    Outcome Weaker Weakened result := by
  cases outcome with
  | done holds => exact .done (done _ _ holds)
  | failed holds => exact .failed (failed _ _ holds)

/-- What a computation that may stop yields: a state, or the error that stopped it. -/
inductive Yields (Done : State → Prop) (Stopped : Error → Prop) : Except Error State → Prop where
  | done {state : State} (holds : Done state) : Yields Done Stopped (.ok state)
  | stopped {error : Error} (holds : Stopped error) : Yields Done Stopped (.error error)

/-- Weaker conditions hold of the same computation. -/
theorem Yields.imp {Done Weaker : State → Prop} {Stopped Weakened : Error → Prop}
    {result : Except Error State} (yields : Yields Done Stopped result)
    (done : ∀ state, Done state → Weaker state) (stopped : ∀ error, Stopped error → Weakened error) :
    Yields Weaker Weakened result := by
  cases yields with
  | done holds => exact .done (done _ holds)
  | stopped holds => exact .stopped (stopped _ holds)

/-- A computation goes on from the state the first part yields. -/
theorem Yields.bind {First : State → Prop} {Early : Error → Prop} {Done : Value → Prop}
    {Stopped : Error → Prop} {result : Except Error State} {next : State → Except Error Value}
    (yields : Yields First Early result) (early : ∀ error, Early error → Stopped error)
    (rest : ∀ state, First state → Yields Done Stopped (next state)) :
    Yields Done Stopped (result.bind next) := by
  cases yields with
  | done holds => exact rest _ holds
  | stopped holds => exact .stopped (early _ holds)

/-- A failure is not a result. -/
theorem error_ne_ok (error : Error) (value : Value) :
    (Except.error error : Except Error Value) ≠ .ok value := nofun

/-- A sequence of two computations succeeds when both do. -/
theorem bind_eq_ok {Result : Type*} {first : Except Error Value}
    {next : Value → Except Error Result} {result : Result} :
    first.bind next = .ok result ↔ ∃ value, first = .ok value ∧ next value = .ok result := by
  cases first with
  | error error => simp [Except.bind]
  | ok value => simp [Except.bind]

/-- What one pass keeps for the items still to come, the loop keeps to its end. -/
theorem forEach_rule (body : Item → State → Except Error Unit × State)
    (Before : List Item → State → Prop) (Failed : Error → State → Prop)
    (pass : ∀ item rest state, Before (item :: rest) state →
      Outcome (fun _ => Before rest) Failed (body item state)) :
    ∀ items state, Before items state →
      Outcome (fun _ => Before []) Failed (forEach body items state) := by
  intro items
  induction items with
  | nil => intro state start; exact .done start
  | cons item rest ih =>
    intro state start
    have first := pass item rest state start
    rw [forEach]
    generalize body item state = result at first
    cases first with
    | done holds => exact ih _ holds
    | failed holds => exact .failed holds

/-- What one pass of an unconditional loop keeps, the fold keeps to its end. -/
theorem foldl_rule {body : State → Item → State} (Before : List Item → State → Prop)
    (pass : ∀ item rest state, Before (item :: rest) state → Before rest (body state item)) :
    ∀ items state, Before items state → Before [] (items.foldl body state) := by
  intro items
  induction items with
  | nil => intro state start; exact start
  | cons item rest ih => intro state start; exact ih _ (pass item rest state start)

end Loop
