import AheadOfTime.World

/-! # Work done side by side

    A strand is a piece of work cut into the steps that nothing else gets between.  A
    pool works on several strands at once: its workers begin them in their order, one
    each at a time, and then any strand that has been begun may take the next step.  A
    strand that fails leaves the others at work.  Once the first failure in the order of
    the strands is known, those that are not begun yet may be called off.  The pool
    answers when every strand it has begun has ended, with the answers in the order of
    the strands or with the first failure in that order. -/

namespace AheadOfTime

/-- A piece of work, one step after the other. -/
inductive Strand (α : Type) : Type 1 where
  | done (answer : α)
  | step {β : Type} (act : Build β) (next : β → Strand α)

/-- A strand that has been begun: what is left of it, or the failure that ended it. -/
abbrev Begun (α : Type) : Type 1 := Except Failure (Strand α)

/-- The strands of a pool: those that have been begun, in their order, and those that wait. -/
structure Pool (α : Type) : Type 1 where
  begun : List (Begun α) := []
  waiting : List (Strand α)

namespace Strand

/-- One step that nothing gets between. -/
def one (act : Build α) : Strand α := step act done

/-- A strand, and then what its answer asks for. -/
protected def bind : Strand α → (α → Strand β) → Strand β
  | done a, after => after a
  | step act next, after => step act fun b => (next b).bind after

instance : Monad Strand where
  pure := done
  bind := Strand.bind

/-- The steps of a strand with nothing between them. -/
def run : Strand α → Build α
  | done a => return a
  | step act next => do (next (← act)).run

/-- One strand after the other, up to the first failure. -/
def inOrder : List (Strand α) → Build (List α)
  | [] => return []
  | strand :: later => do
    let answer ← strand.run
    return answer :: (← inOrder later)

end Strand

namespace Begun

/-- Whether a strand has come to its end. -/
def isOver : Begun α → Bool
  | .error _ => true
  | .ok (.done _) => true
  | .ok (.step _ _) => false

/-- Takes the next step of a strand. -/
def advance (b : Begun α) (w : World) : Begun α × World :=
  match b with
  | .ok (.step act next) => match act.run w with
    | (answer, w) => (answer.map next, w)
  | ended => (ended, w)

/-- Takes all that is left of a strand. -/
def finish (b : Begun α) (w : World) : Except Failure α × World :=
  match b with
  | .ok strand => strand.run.run w
  | .error failure => (.error failure, w)

/-- Takes all that is left of some strands, whether or not one of them fails. -/
def finishAll : List (Begun α) → World → List (Except Failure α) × World
  | [], w => ([], w)
  | b :: later, w => match b.finish w with
    | (answer, w) => match finishAll later w with
      | (answers, w) => (answer :: answers, w)

/-- Whether the first failure in the order of the strands is known. -/
def firstFailureKnown : List (Begun α) → Bool
  | [] => false
  | .error _ :: _ => true
  | .ok (.done _) :: later => firstFailureKnown later
  | .ok (.step _ _) :: _ => false

end Begun

namespace Pool

/-- Takes a turn.  A turn that is not open to the pool changes nothing. -/
def take (workers : Nat) (pool : Pool α) (w : World) : Turn → Pool α × World
  | .begin => match pool.waiting with
    | strand :: later =>
      if (pool.begun.filter (!·.isOver)).length < workers then
        (⟨pool.begun ++ [.ok strand], later⟩, w)
      else (pool, w)
    | [] => (pool, w)
  | .work i => match pool.begun[i]? with
    | some b => match b.advance w with
      | (b, w) => ({ pool with begun := pool.begun.set i b }, w)
    | none => (pool, w)
  | .callOff => (if Begun.firstFailureKnown pool.begun then { pool with waiting := [] }
      else pool, w)

/-- Takes one turn after the other. -/
def takeAll (workers : Nat) : List Turn → Pool α → World → Pool α × World
  | [], pool, w => (pool, w)
  | turn :: later, pool, w => match pool.take workers w turn with
    | (pool, w) => pool.takeAll workers later w

/-- Ends what has been begun, and then what waits unless something failed. -/
def finish (pool : Pool α) : Build (List α) := fun w =>
  match Begun.finishAll pool.begun w with
  | (answers, w) => match answers.mapM id with
    | .ok answers => ((answers ++ ·) <$> Strand.inOrder pool.waiting).run w
    | .error failure => (.error failure, w)

end Pool

/-- Some strands side by side, their steps in the order of the turns. -/
def Strand.sideBySide (workers : Nat) (turns : List Turn) (strands : List (Strand α)) :
    Build (List α) := fun w =>
  match Pool.takeAll workers turns { waiting := strands } w with
  | (pool, w) => pool.finish.run w

end AheadOfTime
