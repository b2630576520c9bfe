/-!
# Runs of stateful operations

An operation on a state keeps an invariant of states and relates the state it
starts from to the one it leaves.  Where the relation is reflexive and
transitive, operations that do so can be put in sequence, and whatever an
operation says about its result is at hand for the next one.

Operations that may fail say something about their result only where they do
not; what they do to the state holds in any case.
-/

namespace FormCompiler

variable {State Result Other Error Item : Type} {Holds : State → Prop}
  {Follows : State → State → Prop} {state : State}

/-- An operation leaves a state with the invariant that is related to the
state it starts from, and gives a result that is good in the state it
leaves. -/
structure Preserves (Holds : State → Prop) (Follows : State → State → Prop)
    (state : State) (operation : StateM State Result)
    (good : State → Result → Prop) : Prop where
  holds : Holds (operation state).2
  follows : Follows state (operation state).2
  good : good (operation state).2 (operation state).1

namespace Preserves

variable {operation : StateM State Result} {good : State → Result → Prop}
  {goodLater : State → Other → Prop}

theorem weaken {other : State → Result → Prop}
    (preserves : Preserves Holds Follows state operation good)
    (implies : ∀ later result, good later result → other later result) :
    Preserves Holds Follows state operation other :=
  ⟨preserves.holds, preserves.follows, implies _ _ preserves.good⟩

/-- What the operation keeps may be used to weaken what is said about its
result. -/
theorem imp {other : State → Result → Prop}
    (preserves : Preserves Holds Follows state operation good)
    (implies : ∀ later result, Holds later → Follows state later →
      good later result → other later result) :
    Preserves Holds Follows state operation other :=
  ⟨preserves.holds, preserves.follows,
    implies _ _ preserves.holds preserves.follows preserves.good⟩

/-- Nothing is said about the result. -/
theorem forget (preserves : Preserves Holds Follows state operation good) :
    Preserves Holds Follows state operation fun _ _ => True :=
  preserves.weaken fun _ _ _ => trivial

/-- Looking at the state first. -/
theorem get_bind {next : State → StateM State Result}
    (rest : Preserves Holds Follows state (next state) good) :
    Preserves Holds Follows state (get >>= next) good :=
  ⟨rest.holds, rest.follows, rest.good⟩

theorem modify {change : State → State} {good : State → Unit → Prop}
    (holds : Holds (change state)) (follows : Follows state (change state))
    (valid : good (change state) ()) :
    Preserves Holds Follows state (modify change) good :=
  ⟨holds, follows, valid⟩

theorem pure [Std.Refl Follows] (holds : Holds state) {result : Result}
    (valid : good state result) :
    Preserves Holds Follows state (Pure.pure result) good :=
  ⟨holds, Std.Refl.refl state, valid⟩

theorem map {change : Result → Other}
    (preserves : Preserves Holds Follows state operation good)
    (implies : ∀ later result, good later result →
      goodLater later (change result)) :
    Preserves Holds Follows state (change <$> operation) goodLater :=
  ⟨preserves.holds, preserves.follows, implies _ _ preserves.good⟩

theorem bind [Trans Follows Follows Follows]
    {next : Result → StateM State Other}
    (first : Preserves Holds Follows state operation good)
    (second : ∀ later result, Holds later → Follows state later →
      good later result →
        Preserves Holds Follows later (next result) goodLater) :
    Preserves Holds Follows state (operation >>= next) goodLater := by
  have rest := second _ _ first.holds first.follows first.good
  exact ⟨rest.holds, Trans.trans first.follows rest.follows, rest.good⟩

end Preserves

/-- An operation that may fail, with a good result unless it does. -/
def Attempts (Holds : State → Prop) (Follows : State → State → Prop)
    (state : State) (operation : ExceptT Error (StateM State) Result)
    (good : State → Result → Prop) : Prop :=
  Preserves Holds Follows state operation.run fun later outcome =>
    ∀ result, outcome = .ok result → good later result

namespace Attempts

variable {operation : ExceptT Error (StateM State) Result}
  {good : State → Result → Prop} {goodLater : State → Other → Prop}

theorem weaken {other : State → Result → Prop}
    (attempts : Attempts Holds Follows state operation good)
    (implies : ∀ later result, good later result → other later result) :
    Attempts Holds Follows state operation other :=
  Preserves.weaken attempts fun later _ good result same =>
    implies later result (good result same)

theorem lift {operation : StateM State Result}
    (preserves : Preserves Holds Follows state operation good) :
    Attempts Holds Follows state
      (liftM operation : ExceptT Error (StateM State) Result) good := by
  refine ⟨preserves.holds, preserves.follows, ?_⟩
  rintro _ ⟨⟩
  exact preserves.good

/-- Looking at the state first. -/
theorem get_bind {next : State → ExceptT Error (StateM State) Result}
    (rest : Attempts Holds Follows state (next state) good) :
    Attempts Holds Follows state (get >>= next) good :=
  ⟨rest.holds, rest.follows, rest.good⟩

variable [Std.Refl Follows]

theorem pure (holds : Holds state) {result : Result}
    (valid : good state result) :
    Attempts Holds Follows state
      (Pure.pure result : ExceptT Error (StateM State) Result) good := by
  refine Preserves.pure holds ?_
  rintro _ ⟨⟩
  exact valid

theorem throw (holds : Holds state) (error : Error) :
    Attempts Holds Follows state
      (throw error : ExceptT Error (StateM State) Result) good := by
  refine Preserves.pure holds ?_
  rintro _ ⟨⟩

variable [Trans Follows Follows Follows]

theorem bind {next : Result → ExceptT Error (StateM State) Other}
    (first : Attempts Holds Follows state operation good)
    (second : ∀ later result, Holds later → Follows state later →
      good later result →
        Attempts Holds Follows later (next result) goodLater) :
    Attempts Holds Follows state (operation >>= next) goodLater := by
  unfold Attempts
  rw [ExceptT.run_bind]
  apply Preserves.bind first
  intro later outcome holds follows good
  cases outcome with
  | error error => exact Attempts.throw holds error
  | ok result => exact second later result holds follows (good result rfl)

/-- An operation on every element of a list.  What is good for a result must
stay so in later states. -/
theorem mapM {read : Item → ExceptT Error (StateM State) Result}
    (holds : Holds state)
    (mono : ∀ later last result, Holds later → Follows later last →
      good later result → good last result)
    (each : ∀ item later, Holds later → Follows state later →
      Attempts Holds Follows later (read item) good) (items : List Item) :
    Attempts Holds Follows state (items.mapM read) fun later results =>
      ∀ result ∈ results, good later result := by
  induction items generalizing state with
  | nil => exact Attempts.pure holds (by simp)
  | cons item items ih =>
      rw [List.mapM_cons]
      apply (each item state holds (Std.Refl.refl state)).bind
      intro later result laterHolds follows laterGood
      have rest := ih laterHolds fun item last lastHolds lastFollows =>
        each item last lastHolds (Trans.trans follows lastFollows)
      apply rest.bind
      intro last results lastHolds lastFollows allGood
      apply Attempts.pure lastHolds
      intro other member
      rcases List.mem_cons.mp member with rfl | later
      · exact mono _ _ _ laterHolds lastFollows laterGood
      · exact allGood other later

end Attempts

/-- From every state an operation leads to a related one. -/
def Relates (Follows : State → State → Prop)
    (operation : StateM State Result) : Prop :=
  ∀ state, Follows state (operation state).2

namespace Relates

variable {operation : StateM State Result}

theorem pure [Std.Refl Follows] (result : Result) :
    Relates Follows (Pure.pure result) :=
  fun state => Std.Refl.refl state

theorem bind [Trans Follows Follows Follows]
    {next : Result → StateM State Other} (first : Relates Follows operation)
    (second : ∀ result, Relates Follows (next result)) :
    Relates Follows (operation >>= next) :=
  fun state => Trans.trans (first state) (second _ _)

theorem map (relates : Relates Follows operation) (change : Result → Other) :
    Relates Follows (change <$> operation) :=
  relates

/-- Looking at the state first. -/
theorem get_bind {next : State → StateM State Result}
    (rest : ∀ seen, Relates Follows (next seen)) :
    Relates Follows (get >>= next) :=
  fun state => rest state state

theorem ite {condition : Prop} [Decidable condition]
    {other : StateM State Result} (holds : Relates Follows operation)
    (fails : Relates Follows other) :
    Relates Follows (if condition then operation else other) := by
  split
  · exact holds
  · exact fails

end Relates

end FormCompiler
