import AheadOfTime.Proofs.Interleaving
import AheadOfTime.Proofs.Outcome

/-! # Work done side by side, and what comes of it

    A pool takes the steps of its strands in some order.  `Worked` says what this
    comes to: every strand has its own steps, taken in its own order and up to its
    own end, the steps of all strands interleave to one walk from world to world,
    and the answer is the list of all answers or the first failure in the order of
    the strands.  `Strand.worked_sideBySide` says that every pool works like this,
    whatever turns it takes, and `Strand.worked_inOrder` that strands taken one
    after the other do so without anything between the steps of one strand.

    What a strand keeps to while others work is proved from its own steps alone:
    `Strand.Sound` goes through them, and `Worked.sound` puts the strands together. -/

namespace AheadOfTime

variable {ι α β : Type}

/-! ## Steps, and strands that take them -/

/-- Steps that were taken one behind the other, each with the world it started in
    and the world it left, lead from one world to another. -/
inductive World.Leads : World → List (World × World) → World → Prop where
  | nil {w : World} : Leads w [] w
  | cons {w u v : World} {steps : List (World × World)} :
      Leads u steps v → Leads w ((w, u) :: steps) v

theorem World.Leads.append {w u v : World} {steps more : List (World × World)}
    (h : Leads w steps u) (h' : Leads u more v) : Leads w (steps ++ more) v := by
  induction h with
  | nil => exact h'
  | cons _ ih => exact .cons (ih h')

theorem World.Leads.one (w v : World) : Leads w [(w, v)] v := .cons .nil

namespace Begun

/-- A strand that has come to this end. -/
def ended : Except Failure α → Begun α
  | .ok a => .ok (.done a)
  | .error e => .error e

/-- The strand takes these steps, each in whatever world it finds, and is then left
    as it says. -/
inductive Takes : Begun α → List (World × World) → Begun α → Prop where
  | rest (b : Begun α) : Takes b [] b
  | step {γ : Type} {act : Build γ} {next : γ → Strand α} {w v : World} {answer : Except Failure γ}
      {steps : List (World × World)} {b : Begun α} :
      act.run w = (answer, v) → Takes (answer.map next) steps b →
      Takes (.ok (.step act next)) ((w, v) :: steps) b

theorem Takes.trans {b b' b'' : Begun α} {steps more : List (World × World)}
    (h : Takes b steps b') (h' : Takes b' more b'') : Takes b (steps ++ more) b'' := by
  induction h with
  | rest => exact h'
  | step hrun _ ih => exact .step hrun (ih h')

/-- A strand that has failed takes no step. -/
theorem Takes.of_error {e : Failure} {steps : List (World × World)} {b : Begun α}
    (h : Takes (.error e) steps b) : steps = [] ∧ b = .error e := by
  cases h
  exact ⟨rfl, rfl⟩

/-- A strand that is done takes no step. -/
theorem Takes.of_done {a : α} {steps : List (World × World)} {b : Begun α}
    (h : Takes (.ok (.done a)) steps b) : steps = [] ∧ b = .ok (.done a) := by
  cases h
  exact ⟨rfl, rfl⟩

theorem ended_eq_ok_done {answer : Except Failure α} {a : α}
    (h : ended answer = .ok (.done a)) : answer = .ok a := by
  cases answer with
  | ok b => exact congrArg Except.ok (Strand.done.inj (Except.ok.inj h))
  | error e => exact nomatch h

theorem ended_eq_error {answer : Except Failure α} {e : Failure}
    (h : ended answer = .error e) : answer = .error e := by
  cases answer with
  | ok b => exact nomatch h
  | error e' => exact congrArg Except.error (Except.error.inj h)

/-- A strand that has a step before it and comes to its end has taken that step. -/
theorem Takes.of_step {act : Build α} {next : α → Strand β} {steps : List (World × World)}
    {answer : Except Failure β} (h : Takes (.ok (.step act next)) steps (ended answer)) :
    ∃ w v r more, steps = (w, v) :: more ∧ act.run w = (r, v) ∧
      Takes (r.map next) more (ended answer) := by
  generalize hend : ended answer = b at h
  cases h with
  | rest => cases answer <;> exact nomatch hend
  | step hrun htakes => exact ⟨_, _, _, _, rfl, hrun, htakes⟩

end Begun

namespace Strand

/-- A single step either fails or answers. -/
theorem takes_one {act : Build α} {steps : List (World × World)} {answer : Except Failure α}
    (h : Begun.Takes (.ok (one act)) steps (.ended answer)) :
    ∃ w v, steps = [(w, v)] ∧ act.run w = (answer, v) := by
  obtain ⟨w, v, r, more, rfl, hrun, htakes⟩ := h.of_step
  cases r with
  | ok a =>
      obtain ⟨rfl, hend⟩ := htakes.of_done
      rw [Begun.ended_eq_ok_done hend]
      exact ⟨w, v, rfl, hrun⟩
  | error e =>
      obtain ⟨rfl, hend⟩ := htakes.of_error
      rw [Begun.ended_eq_error hend]
      exact ⟨w, v, rfl, hrun⟩

/-- **One strand behind the other**: either the first one fails, or it answers and
    the second one takes its steps behind it. -/
theorem takes_bind {s : Strand α} {f : α → Strand β} {steps : List (World × World)}
    {answer : Except Failure β} (h : Begun.Takes (.ok (s.bind f)) steps (.ended answer)) :
    (∃ e, answer = .error e ∧ Begun.Takes (.ok s) steps (.ended (.error e))) ∨
    ∃ a first second, steps = first ++ second ∧ Begun.Takes (.ok s) first (.ended (.ok a)) ∧
      Begun.Takes (.ok (f a)) second (.ended answer) := by
  induction s generalizing steps with
  | done a => exact .inr ⟨a, [], steps, rfl, .rest _, h⟩
  | step act next ih =>
      obtain ⟨w, v, r, more, rfl, hrun, htakes⟩ := h.of_step
      cases r with
      | error e =>
          obtain ⟨rfl, hend⟩ := htakes.of_error
          exact .inl ⟨e, Begun.ended_eq_error hend, .step hrun (.rest _)⟩
      | ok b =>
          rcases ih b htakes with ⟨e, rfl, hfirst⟩ | ⟨a, first, second, rfl, hfirst, hsecond⟩
          · exact .inl ⟨e, rfl, .step hrun hfirst⟩
          · exact .inr ⟨a, _ :: first, second, rfl, .step hrun hfirst, hsecond⟩

@[simp] theorem run_one (act : Build α) : (one act).run = act := bind_pure act

protected theorem run_bind (s : Strand α) (f : α → Strand β) :
    (s.bind f).run = (do (f (← s.run)).run) := by
  induction s with
  | done a => exact (pure_bind a fun a => (f a).run).symm
  | step act next ih =>
      show (do ((next (← act)).bind f).run) = _
      rw [run, bind_assoc]
      exact bind_congr ih

/-- A strand that runs by itself takes its steps with nothing between them. -/
theorem takes_run {s : Strand α} {w v : World} {answer : Except Failure α}
    (h : s.run.run w = (answer, v)) :
    ∃ steps, Begun.Takes (.ok s) steps (.ended answer) ∧ World.Leads w steps v := by
  induction s generalizing w with
  | done a =>
      cases h
      exact ⟨[], .rest _, .nil⟩
  | step act next ih =>
      rcases hact : act.run w with ⟨e | b, u⟩
      · rw [run, run_bind_error hact] at h
        cases h
        exact ⟨[(w, v)], .step hact (.rest _), .one w v⟩
      · rw [run, run_bind_ok hact] at h
        obtain ⟨steps, htakes, hleads⟩ := ih b h
        exact ⟨(w, u) :: steps, .step hact htakes, .cons hleads⟩

end Strand

/-! ## What comes of several strands -/

/-- What one of several strands came to: its steps, and its end unless it was called
    off before it began. -/
structure Portion (ι α : Type) where
  label : ι
  steps : List (World × World)
  outcome : Option (Except Failure α)

/-- The steps and the end are those of the strand that goes by the label. -/
def Portion.Follows (p : Portion ι α) (f : ι → Strand α) : Prop :=
  match p.outcome with
  | none => p.steps = []
  | some answer => Begun.Takes (.ok (f p.label)) p.steps (.ended answer)

/-- What several strands answer together: all answers, or the first failure in their
    order.  Behind a failure nothing comes to an end unless the strands are
    `pooled`. -/
inductive Decided (pooled : Bool) : List (Option (Except Failure α)) →
    Except Failure (List α) → Prop
    where
  | all (answers : List α) : Decided pooled (answers.map fun a => some (.ok a)) (.ok answers)
  | failed (answers : List α) (e : Failure) (others : List (Option (Except Failure α))) :
      (pooled = false → ∀ o ∈ others, o = none) →
      Decided pooled ((answers.map fun a => some (.ok a)) ++ some (.error e) :: others) (.error e)

/-- How strands come out that are worked on together, and which world they leave. -/
structure Worked (pooled : Bool) (f : ι → Strand α) (labels : List ι) (w : World)
    (answer : Except Failure (List α)) (v : World) (portions : List (Portion ι α))
    (whole : List (World × World)) : Prop where
  labels : portions.map Portion.label = labels
  follows : ∀ p ∈ portions, p.Follows f
  woven : Interleaves (portions.map Portion.steps) whole
  inTurn : pooled = false → whole = (portions.map Portion.steps).flatten
  leads : w.Leads whole v
  decided : Decided pooled (portions.map Portion.outcome) answer

namespace Decided

variable {pooled : Bool} {outcomes : List (Option (Except Failure α))}
  {answer : Except Failure (List α)}

/-- Answers in front of the others come in front of what the others answer. -/
theorem behind_answers (h : Decided pooled outcomes answer) (found : List α) :
    Decided pooled ((found.map fun a => some (.ok a)) ++ outcomes) (answer.map (found ++ ·)) := by
  cases h with
  | all answers =>
      rw [← List.map_append]
      exact .all _
  | failed answers e others hothers =>
      rw [← List.append_assoc, ← List.map_append]
      exact .failed _ e others hothers

/-- What is so of strands taken in order is so of any. -/
theorem pooled_of (h : Decided false outcomes answer) : Decided pooled outcomes answer := by
  cases h with
  | all answers => exact .all answers
  | failed answers e others hothers => exact .failed answers e others fun _ => hothers rfl

/-- What comes behind a failure does not matter to a pool. -/
theorem failed_append {e : Failure} (h : Decided true outcomes (.error e))
    (more : List (Option (Except Failure α))) : Decided true (outcomes ++ more) (.error e) := by
  obtain _ | ⟨answers, _, others, _⟩ := h
  rw [List.append_assoc, List.cons_append]
  exact .failed answers e _ nofun

/-- The failure that is answered is that of a strand. -/
theorem mem_of_error {e : Failure} (h : Decided pooled outcomes (.error e)) :
    some (.error e) ∈ outcomes := by
  obtain _ | ⟨answers, _, others, _⟩ := h
  exact List.mem_append_right _ List.mem_cons_self

theorem eq_of_ok {answers : List α} (h : Decided pooled outcomes (.ok answers)) :
    outcomes = answers.map fun a => some (.ok a) := by
  cases h
  rfl

end Decided

theorem Portion.calledOff_follows (label : ι) (f : ι → Strand α) :
    (⟨label, [], none⟩ : Portion ι α).Follows f := rfl

/-- Strands that were not begun leave the world alone. -/
theorem Interleaves.calledOff (labels : List ι) :
    Interleaves ((labels.map fun i => (⟨i, [], none⟩ : Portion ι α)).map Portion.steps) [] := by
  induction labels with
  | nil => exact .nil
  | cons i later ih => exact .cons ih .nil

/-! ## One strand after the other -/

/-- **Strands in order**: each one takes all its steps before the next one begins,
    and the first failure is the last that happens. -/
theorem Strand.worked_inOrder (f : ι → Strand α) (labels : List ι) {w v : World}
    {answer : Except Failure (List α)}
    (h : (inOrder (labels.map f)).run w = (answer, v)) :
    ∃ portions whole, Worked false f labels w answer v portions whole := by
  induction labels generalizing w answer with
  | nil =>
      cases h
      exact ⟨[], [], rfl, nofun, .nil, fun _ => rfl, .nil, .all []⟩
  | cons i later ih =>
      rw [List.map_cons, inOrder] at h
      rcases hfirst : (f i).run.run w with ⟨e | a, u⟩
      · rw [run_bind_error hfirst] at h
        cases h
        obtain ⟨steps, htakes, hleads⟩ := takes_run hfirst
        -- what comes behind a failure in turn has not been begun
        refine ⟨⟨i, steps, some (.error e)⟩ :: later.map fun i => ⟨i, [], none⟩, steps,
          ?_, ?_, ?_, fun _ => ?_, hleads, ?_⟩
        · rw [List.map_cons, List.map_map]
          exact congrArg _ (List.map_id _)
        · rintro p (_ | ⟨_, hp⟩)
          · exact htakes
          · obtain ⟨j, -, rfl⟩ := List.mem_map.mp hp
            rfl
        · exact .cons (.calledOff later) (.nil_right steps)
        · rw [List.map_cons, List.flatten_cons, List.map_map]
          simp
        · refine .failed [] e _ fun _ o ho => ?_
          rw [List.map_map] at ho
          obtain ⟨j, -, rfl⟩ := List.mem_map.mp ho
          rfl
      · rw [run_bind_ok hfirst, run_bind] at h
        obtain ⟨steps, htakes, hleads⟩ := takes_run hfirst
        rcases hothers : (inOrder (later.map f)).run u with ⟨e | answers, v'⟩
        all_goals
          rw [hothers] at h
          cases h
          obtain ⟨portions, whole, hworked⟩ := ih hothers
          -- the first strand's steps are all before those of the others
          refine ⟨⟨i, steps, some (.ok a)⟩ :: portions, steps ++ whole, ?_, ?_, ?_, fun _ => ?_,
            hleads.append hworked.leads, hworked.decided.behind_answers [a]⟩
          · exact congrArg _ hworked.labels
          · rintro p (_ | ⟨_, hp⟩)
            · exact htakes
            · exact hworked.follows p hp
          · exact .cons hworked.woven (.concat steps whole)
          · rw [hworked.inTurn rfl]
            rfl

/-! ## Strands side by side -/

/-- A strand that a pool has begun: its steps so far, and what is left of it. -/
structure Journey (ι α : Type) : Type 1 where
  label : ι
  steps : List (World × World)
  now : Begun α

/-- The strand that goes by the label has come as far as the journey says. -/
def Journey.Holds (j : Journey ι α) (f : ι → Strand α) : Prop :=
  Begun.Takes (.ok (f j.label)) j.steps j.now

/-- Journeys that have led from one world to another, with no step left out. -/
structure Travelled (f : ι → Strand α) (w : World) (journeys : List (Journey ι α)) (v : World) :
    Prop where
  holds : ∀ j ∈ journeys, j.Holds f
  walk : ∃ whole, Interleaves (journeys.map Journey.steps) whole ∧ w.Leads whole v

namespace Travelled

variable {f : ι → Strand α} {w v u : World} {journeys : List (Journey ι α)}

theorem nil (f : ι → Strand α) (w : World) : Travelled f w [] w := ⟨nofun, [], .nil, .nil⟩

/-- One of the strands goes on by some steps. -/
theorem proceed {before after : List (Journey ι α)} {j : Journey ι α}
    {more : List (World × World)} {b : Begun α} (h : Travelled f w (before ++ j :: after) v)
    (htakes : j.now.Takes more b) (hleads : v.Leads more u) :
    Travelled f w (before ++ ⟨j.label, j.steps ++ more, b⟩ :: after) u := by
  obtain ⟨hholds, whole, hwoven, hwalk⟩ := h
  refine ⟨fun k hk => ?_, whole ++ more, ?_, hwalk.append hleads⟩
  · rcases List.mem_append.mp hk with hk | hk
    · exact hholds k (List.mem_append_left _ hk)
    · rcases List.mem_cons.mp hk with rfl | hk
      · exact (hholds j (List.mem_append_right _ List.mem_cons_self)).trans htakes
      · exact hholds k (List.mem_append_right _ (List.mem_cons_of_mem _ hk))
  · rw [List.map_append, List.map_cons] at hwoven ⊢
    exact hwoven.extend more

/-- One more strand is begun. -/
theorem begin (h : Travelled f w journeys v) (i : ι) :
    Travelled f w (journeys ++ [⟨i, [], .ok (f i)⟩]) v := by
  obtain ⟨hholds, whole, hwoven, hwalk⟩ := h
  refine ⟨fun k hk => ?_, whole, ?_, hwalk⟩
  · rcases List.mem_append.mp hk with hk | hk
    · exact hholds k hk
    · rw [List.mem_singleton.mp hk]
      exact .rest _
  · have hone := hwoven.append (Interleaves.singleton_iff (l := []).mpr rfl)
    rw [List.append_nil] at hone
    rw [List.map_append]
    exact hone

end Travelled

namespace Begun

/-- A step that is taken leads on, and any other strand stays where it is. -/
theorem takes_advance (b : Begun α) (w : World) : ∃ steps,
    b.Takes steps (b.advance w).1 ∧ w.Leads steps (b.advance w).2 := by
  rcases b with e | (a | ⟨act, next⟩)
  · exact ⟨[], .rest _, .nil⟩
  · exact ⟨[], .rest _, .nil⟩
  · exact ⟨[(w, (act.run w).2)], .step rfl (.rest _), .one w _⟩

/-- All that is left of a strand leads to its end. -/
theorem takes_finish (b : Begun α) (w : World) : ∃ steps,
    b.Takes steps (ended (b.finish w).1) ∧ w.Leads steps (b.finish w).2 := by
  cases b with
  | error e => exact ⟨[], .rest _, .nil⟩
  | ok strand => exact Strand.takes_run rfl

/-- Which failure comes first does not change when a strand goes on that has not
    ended. -/
theorem firstFailureKnown_advance {bs : List (Begun α)} {b : Begun α} {i : Nat} (w : World)
    (hb : bs[i]? = some b) (h : firstFailureKnown bs = true) :
    firstFailureKnown (bs.set i (b.advance w).1) = true := by
  induction bs generalizing i with
  | nil => exact nomatch hb
  | cons first later ih =>
      rcases first with e | (a | ⟨act, next⟩)
      · cases i with
        | zero =>
            obtain rfl := Option.some.inj hb
            rfl
        | succ i => rfl
      · cases i with
        | zero =>
            obtain rfl := Option.some.inj hb
            exact h
        | succ i => exact ih hb h
      · exact nomatch h

/-- A first failure that is known is what the strands come to. -/
theorem finishAll_of_firstFailureKnown {bs : List (Begun α)} (w : World)
    (h : firstFailureKnown bs = true) :
    ∃ e, (finishAll bs w).1.mapM id = Except.error (α := List α) e := by
  induction bs generalizing w with
  | nil => exact nomatch h
  | cons first later ih =>
      rcases first with e | (a | ⟨act, next⟩)
      · exact ⟨e, by rw [finishAll, finish, List.mapM_cons]; rfl⟩
      · obtain ⟨e, he⟩ := ih w h
        refine ⟨e, ?_⟩
        rw [finishAll, List.mapM_cons]
        show (do let answers ← (finishAll later w).1.mapM id; pure (a :: answers)) = _
        rw [he]
        rfl
      · exact nomatch h

end Begun

/-- What the strands of a pool come to. -/
theorem Decided.of_mapM (answers : List (Except Failure α)) :
    Decided true (answers.map some) (answers.mapM id) := by
  induction answers with
  | nil => exact .all []
  | cons first later ih =>
      rw [List.mapM_cons]
      cases first with
      | error e => exact .failed [] e _ nofun
      | ok a =>
          have h := ih.behind_answers [a]
          rcases hlater : later.mapM id with e | found
          all_goals
            rw [hlater] at h
            exact h

/-- A pool at work: the strands it has begun are under way, those that wait are the
    next ones, and some may have been called off because of a failure. -/
structure Pool.Underway (f : ι → Strand α) (labels : List ι) (w : World) (pool : Pool α)
    (v : World) (journeys : List (Journey ι α)) (later off : List ι) : Prop where
  labels : labels = journeys.map Journey.label ++ later ++ off
  begun : pool.begun = journeys.map Journey.now
  waiting : pool.waiting = later.map f
  travelled : Travelled f w journeys v
  off : off ≠ [] → Begun.firstFailureKnown pool.begun = true ∧ later = []

namespace Pool.Underway

variable {f : ι → Strand α} {labels later off : List ι} {w v : World} {pool : Pool α}
  {journeys : List (Journey ι α)}

/-- The next strand that waits is begun. -/
theorem begins (h : Underway f labels w pool v journeys later off) {i : ι} {rest : List ι}
    (hlater : later = i :: rest) :
    Underway f labels w ⟨pool.begun ++ [.ok (f i)], rest.map f⟩ v
      (journeys ++ [⟨i, [], .ok (f i)⟩]) rest [] := by
  have hoff : off = [] := by
    by_contra hne
    exact nomatch hlater.symm.trans (h.off hne).2
  refine ⟨?_, ?_, rfl, h.travelled.begin i, fun hne => absurd rfl hne⟩
  · rw [h.labels, hlater, hoff]
    simp
  · rw [h.begun, List.map_append]
    rfl

/-- A strand takes its next step. -/
theorem works (h : Underway f labels w pool v journeys later off) {i : Nat} {b : Begun α}
    (hb : pool.begun[i]? = some b) : ∃ journeys,
      Underway f labels w { pool with begun := pool.begun.set i (b.advance v).1 } (b.advance v).2
        journeys later off := by
  have hjourney := hb
  rw [h.begun, List.getElem?_map] at hjourney
  obtain ⟨j, hj, rfl⟩ := Option.map_eq_some_iff.mp hjourney
  obtain ⟨hi, hget⟩ := List.getElem?_eq_some_iff.mp hj
  obtain ⟨steps, htakes, hleads⟩ := j.now.takes_advance v
  have hset : ∀ k : Journey ι α, journeys.set i k
      = journeys.take i ++ k :: journeys.drop (i + 1) := fun k =>
    List.set_eq_take_append_cons_drop.trans (if_pos hi)
  have hsame : journeys.set i j = journeys := by rw [← hget, List.set_getElem_self]
  have htravelled := h.travelled
  rw [← hsame, hset] at htravelled
  refine ⟨journeys.set i ⟨j.label, j.steps ++ steps, (j.now.advance v).1⟩, ?_, ?_, h.waiting, ?_,
    fun hne => ⟨Begun.firstFailureKnown_advance v hb (h.off hne).1, (h.off hne).2⟩⟩
  · rw [h.labels, List.map_set]
    congr 2
    conv_lhs => rw [← hsame, List.map_set]
  · rw [h.begun, List.map_set]
  · rw [hset]
    exact htravelled.proceed htakes hleads

/-- **Every turn** leaves a pool at work. -/
theorem take (h : Underway f labels w pool v journeys later off) (workers : Nat) (turn : Turn) :
    ∃ journeys later off, Underway f labels w (pool.take workers v turn).1
      (pool.take workers v turn).2 journeys later off := by
  have hidle : ∃ journeys later off, Underway f labels w pool v journeys later off :=
    ⟨journeys, later, off, h⟩
  cases turn with
  | begin =>
      have hwaiting := h.waiting
      simp only [Pool.take]
      rcases later with _ | ⟨i, rest⟩
      · rw [hwaiting]
        exact hidle
      · rw [hwaiting]
        simp only [List.map_cons]
        split
        · exact ⟨_, _, _, h.begins rfl⟩
        · exact hidle
  | work i =>
      simp only [Pool.take]
      rcases hb : pool.begun[i]? with _ | b
      · exact hidle
      · obtain ⟨journeys', h'⟩ := h.works hb
        exact ⟨journeys', later, off, h'⟩
  | callOff =>
      simp only [Pool.take]
      split
      · rename_i hknown
        -- what is called off is all that has not begun
        refine ⟨journeys, [], later ++ off, ?_, h.begun, rfl, h.travelled, fun _ => ⟨hknown, rfl⟩⟩
        rw [h.labels, List.append_nil, List.append_assoc]
      · exact hidle

/-- **All turns**, one after the other, leave a pool at work. -/
theorem takeAll (h : Underway f labels w pool v journeys later off) (workers : Nat)
    (turns : List Turn) : ∃ journeys later off, Underway f labels w
      (pool.takeAll workers turns v).1 (pool.takeAll workers turns v).2 journeys later off := by
  induction turns generalizing pool v journeys later off with
  | nil => exact ⟨journeys, later, off, h⟩
  | cons turn rest ih =>
      obtain ⟨journeys', later', off', h'⟩ := h.take workers turn
      exact ih h'

end Pool.Underway

/-- Strands that are all taken to their ends. -/
theorem Travelled.finish {f : ι → Strand α} {w v : World} (journeys ended : List (Journey ι α))
    (h : Travelled f w (ended ++ journeys) v) :
    ∃ portions : List (Portion ι α), portions.map Portion.label = journeys.map Journey.label ∧
      portions.map Portion.outcome
        = (Begun.finishAll (journeys.map Journey.now) v).1.map some ∧
      (∀ p ∈ portions, p.Follows f) ∧
      ∃ whole, Interleaves (ended.map Journey.steps ++ portions.map Portion.steps) whole ∧
        w.Leads whole (Begun.finishAll (journeys.map Journey.now) v).2 := by
  induction journeys generalizing ended v with
  | nil =>
      obtain ⟨-, whole, hwoven, hwalk⟩ := h
      rw [List.append_nil] at hwoven
      refine ⟨[], rfl, rfl, nofun, whole, ?_, hwalk⟩
      rw [List.map_nil, List.append_nil]
      exact hwoven
  | cons j later ih =>
      obtain ⟨steps, htakes, hleads⟩ := j.now.takes_finish v
      -- while the first strand goes to its end, the others stand still
      have hproceed := h.proceed htakes hleads
      rw [List.append_cons] at hproceed
      obtain ⟨portions, hlabels, houtcomes, hfollows, whole, hwoven, hwalk⟩ := ih _ hproceed
      have hj : j.Holds f := h.holds j (List.mem_append_right _ List.mem_cons_self)
      refine ⟨⟨j.label, j.steps ++ steps, some (j.now.finish v).1⟩ :: portions, ?_, ?_, ?_, whole,
        ?_, hwalk⟩
      · exact congrArg _ hlabels
      · exact congrArg _ houtcomes
      · rintro p (_ | ⟨_, hp⟩)
        · exact hj.trans htakes
        · exact hfollows p hp
      · rw [List.map_append, List.append_assoc] at hwoven
        exact hwoven

/-- A pool one of whose strands failed ends in the first failure, in their order. -/
theorem Pool.run_finish_of_error (pool : Pool α) {w : World} {e : Failure}
    (h : (Begun.finishAll pool.begun w).1.mapM id = .error e) :
    pool.finish.run w = (.error e, (Begun.finishAll pool.begun w).2) := by
  have hfinish : pool.finish.run w = pool.finish w := rfl
  rw [hfinish, Pool.finish]
  simp only [h]

/-- A pool all of whose strands have answered goes on with those that wait. -/
theorem Pool.run_finish_of_ok (pool : Pool α) {w : World} {found : List α}
    (h : (Begun.finishAll pool.begun w).1.mapM id = .ok found) :
    pool.finish.run w
      = ((found ++ ·) <$> Strand.inOrder pool.waiting).run (Begun.finishAll pool.begun w).2 := by
  have hfinish : pool.finish.run w = pool.finish w := rfl
  rw [hfinish, Pool.finish]
  simp only [h]

/-- **Strands side by side**: whatever turns a pool takes, every strand that it
    begins takes its own steps to its own end, and those that it does not begin are
    behind a failure. -/
theorem Strand.worked_sideBySide (f : ι → Strand α) (labels : List ι) (workers : Nat)
    (turns : List Turn) {w v : World} {answer : Except Failure (List α)}
    (h : (sideBySide workers turns (labels.map f)).run w = (answer, v)) :
    ∃ portions whole, Worked true f labels w answer v portions whole := by
  have hstart : Pool.Underway f labels w { waiting := labels.map f } w [] labels [] :=
    ⟨by simp, rfl, rfl, .nil f w, fun hne => absurd rfl hne⟩
  obtain ⟨journeys, later, off, hplayed⟩ := hstart.takeAll workers turns
  replace h : (Pool.finish (Pool.takeAll workers turns { waiting := labels.map f } w).1).run
      (Pool.takeAll workers turns { waiting := labels.map f } w).2 = (answer, v) := h
  generalize Pool.takeAll workers turns { waiting := labels.map f } w = played at h hplayed
  obtain ⟨pool, u⟩ := played
  obtain ⟨portions, hlabels, houtcomes, hfollows, whole, hwoven, hwalk⟩ :=
    hplayed.travelled.finish journeys []
  have hdecided := Decided.of_mapM (Begun.finishAll (journeys.map Journey.now) u).1
  rw [← houtcomes] at hdecided
  have hbegun := hplayed.begun
  rcases hfound : (Begun.finishAll (journeys.map Journey.now) u).1.mapM id with e | found
  · -- a strand failed, and what still waits is called off
    rw [pool.run_finish_of_error (hbegun ▸ hfound), hbegun] at h
    rw [hfound] at hdecided
    cases h
    have hrest := hwoven.append (Interleaves.calledOff (α := α) (later ++ off))
    rw [List.append_nil, List.map_nil, List.nil_append, ← List.map_append] at hrest
    refine ⟨portions ++ (later ++ off).map fun i => ⟨i, [], none⟩, whole, ?_, ?_, hrest,
      fun hpooled => absurd hpooled (Bool.noConfusion), hwalk, ?_⟩
    · rw [List.map_append, hlabels, hplayed.labels, List.map_map, List.append_assoc]
      exact congrArg _ (List.map_id _)
    · intro p hp
      rcases List.mem_append.mp hp with hp | hp
      · exact hfollows p hp
      · obtain ⟨i, -, rfl⟩ := List.mem_map.mp hp
        exact Portion.calledOff_follows i f
    · rw [List.map_append]
      exact hdecided.failed_append _
  · -- all strands begun have answered, so none was called off
    have hoff : off = [] := by
      by_contra hne
      have hknown := (hplayed.off hne).1
      rw [hplayed.begun] at hknown
      obtain ⟨e, he⟩ := Begun.finishAll_of_firstFailureKnown u hknown
      rw [hfound] at he
      cases he
    rw [pool.run_finish_of_ok (hbegun ▸ hfound), hbegun, hplayed.waiting, run_map] at h
    rw [hfound] at hdecided
    rcases hothers : (inOrder (later.map f)).run (Begun.finishAll (journeys.map Journey.now) u).2
      with ⟨answer', v'⟩
    obtain ⟨more, rest, hworked⟩ := worked_inOrder f later hothers
    have hanswer : answer = answer'.map (found ++ ·) ∧ v = v' := by
      rw [hothers] at h
      cases answer' <;> exact ⟨(congrArg Prod.fst h).symm, (congrArg Prod.snd h).symm⟩
    obtain ⟨rfl, rfl⟩ := hanswer
    have hwhole := hwoven.append hworked.woven
    rw [List.map_nil, List.nil_append, ← List.map_append] at hwhole
    refine ⟨portions ++ more, whole ++ rest, ?_, ?_, hwhole,
      fun hpooled => absurd hpooled (Bool.noConfusion), hwalk.append hworked.leads, ?_⟩
    · rw [List.map_append, hlabels, hworked.labels, hplayed.labels, hoff, List.append_nil]
    · exact List.forall_mem_append.mpr ⟨hfollows, hworked.follows⟩
    · rw [List.map_append, hdecided.eq_of_ok]
      exact hworked.decided.pooled_of.behind_answers found

/-! ## What a strand keeps to while others work -/

section

variable {R : World → World → Prop}

/-- The steps keep to the relation, if all that happens before and between them
    does. -/
def Guarded (R : World → World → Prop) : World → List (World × World) → Prop
  | _, [] => True
  | w, (u, u') :: later => R w u → R u u' ∧ Guarded R u' later

/-- The steps and all that happens before, between and behind them keep to the
    relation. -/
def Amid (R : World → World → Prop) : World → List (World × World) → World → Prop
  | w, [], v => R w v
  | w, (u, u') :: later, v => R w u ∧ R u u' ∧ Amid R u' later v

/-- The relation may be kept for no time and from one time to the next. -/
structure Lasting (R : World → World → Prop) : Prop where
  refl (w : World) : R w w
  trans {u v w : World} : R u v → R v w → R u w

/-- What lasts from step to step lasts along a walk. -/
theorem World.Leads.lasts {w v : World} {steps : List (World × World)} (hR : Lasting R)
    (h : w.Leads steps v) (hsteps : ∀ s ∈ steps, R s.1 s.2) : R w v := by
  induction h with
  | nil => exact hR.refl _
  | cons _ ih =>
      obtain ⟨hfirst, hlater⟩ := List.forall_mem_cons.mp hsteps
      exact hR.trans hfirst (ih hlater)

theorem Guarded.later {w u : World} {steps : List (World × World)} (hR : Lasting R)
    (h : Guarded R w steps) (hwu : R w u) : Guarded R u steps := by
  rcases steps with _ | ⟨⟨a, b⟩, steps⟩
  · trivial
  · exact fun hua => h (hR.trans hwu hua)

theorem Amid.earlier {w u v : World} {steps : List (World × World)} (hR : Lasting R)
    (h : Amid R u steps v) (hwu : R w u) : Amid R w steps v := by
  rcases steps with _ | ⟨⟨a, b⟩, steps⟩
  · exact hR.trans hwu h
  · exact ⟨hR.trans hwu h.1, h.2⟩

/-- **Work together**: if each strand keeps to the relation while the others do, all
    of them keep to it. -/
theorem Interleaves.amid (hR : Lasting R) {parts : List (List (World × World))}
    {whole : List (World × World)} {w v : World} (h : Interleaves parts whole)
    (hleads : w.Leads whole v) (hparts : ∀ l ∈ parts, Guarded R w l) :
    R w v ∧ ∀ l ∈ parts, Amid R w l v := by
  induction hleads generalizing parts with
  | nil =>
      refine ⟨hR.refl _, fun l hl => ?_⟩
      rw [h.eq_nil_of_nil hl]
      exact hR.refl _
  | @cons w u v steps _ ih =>
      -- one list has the next step, and for all others it is a step of the others
      obtain ⟨before, l, after, rfl, hrest⟩ := h.head
      obtain ⟨hstep, hl⟩ := hparts _ (List.mem_append_right _ List.mem_cons_self) (hR.refl w)
      have hguarded : ∀ k ∈ before ++ l :: after, Guarded R u k := by
        intro k hk
        rcases List.mem_append.mp hk with hk | hk
        · exact (hparts k (List.mem_append_left _ hk)).later hR hstep
        · rcases List.mem_cons.mp hk with rfl | hk
          · exact hl
          · exact (hparts k (List.mem_append_right _ (List.mem_cons_of_mem _ hk))).later hR hstep
      obtain ⟨hlasts, hamid⟩ := ih hrest hguarded
      refine ⟨hR.trans hstep hlasts, fun k hk => ?_⟩
      rcases List.mem_append.mp hk with hk | hk
      · exact (hamid k (List.mem_append_left _ hk)).earlier hR hstep
      · rcases List.mem_cons.mp hk with rfl | hk
        · exact ⟨hR.refl w, hstep, hamid l (List.mem_append_right _ List.mem_cons_self)⟩
        · exact (hamid k (List.mem_append_right _ (List.mem_cons_of_mem _ hk))).earlier hR hstep

variable {fine : α → World → Prop} {stopped : Failure → World → Prop}

/-- An answer is fine, or a failure stopped it as it should. -/
def Fares (fine : α → World → Prop) (stopped : Failure → World → Prop) :
    Except Failure α → World → Prop
  | .ok a, v => fine a v
  | .error e, v => stopped e v

/-- **Every step** of the strand keeps to the relation while all else does, and what
    the strand comes to, an answer or a failure, is and stays as it should be. -/
def Strand.Sound (R : World → World → Prop) (fine : α → World → Prop)
    (stopped : Failure → World → Prop) : Strand α → World → Prop
  | .done a, w => ∀ v, R w v → fine a v
  | .step act next, w => ∀ u, R w u → ∀ answer u', act.run u = (answer, u') →
      R u u' ∧ match answer with
        | .ok b => (next b).Sound R fine stopped u'
        | .error e => ∀ v, R u' v → stopped e v

namespace Strand.Sound

theorem one {act : Build α} {w : World}
    (h : ∀ u, R w u → ∀ answer u', act.run u = (answer, u') →
      R u u' ∧ ∀ v, R u' v → Fares fine stopped answer v) :
    (Strand.one act).Sound R fine stopped w := by
  intro u hwu answer u' hrun
  obtain ⟨hstep, hanswer⟩ := h u hwu answer u' hrun
  refine ⟨hstep, ?_⟩
  cases answer with
  | ok a => exact hanswer
  | error e => exact hanswer

/-- A strand behind another one starts in a world where that one's answer is as it
    should be. -/
theorem bind {s : Strand α} {f : α → Strand β} {between : α → World → Prop}
    {fine : β → World → Prop} {w : World} (hR : Lasting R)
    (hs : s.Sound R between stopped w)
    (hf : ∀ a u, R w u → between a u → (f a).Sound R fine stopped u) :
    (s.bind f).Sound R fine stopped w := by
  induction s generalizing w with
  | done a => exact hf a w (hR.refl w) (hs w (hR.refl w))
  | step act next ih =>
      intro u hwu answer u' hrun
      obtain ⟨hstep, hanswer⟩ := hs u hwu answer u' hrun
      refine ⟨hstep, ?_⟩
      cases answer with
      | error e => exact hanswer
      | ok b => exact ih b hanswer fun a v hu'v => hf a v (hR.trans hwu (hR.trans hstep hu'v))

theorem guarded {s : Strand α} {w : World} {steps : List (World × World)}
    {answer : Except Failure α} (h : s.Sound R fine stopped w)
    (htakes : Begun.Takes (.ok s) steps (.ended answer)) : Guarded R w steps := by
  induction s generalizing w steps with
  | done a =>
      obtain ⟨rfl, -⟩ := htakes.of_done
      trivial
  | step act next ih =>
      obtain ⟨u, u', r, more, rfl, hrun, htakes⟩ := htakes.of_step
      intro hwu
      obtain ⟨hstep, hanswer⟩ := h u hwu r u' hrun
      refine ⟨hstep, ?_⟩
      cases r with
      | ok b => exact ih b hanswer htakes
      | error e =>
          rw [htakes.of_error.1]
          trivial

theorem ends {s : Strand α} {w v : World} {steps : List (World × World)}
    {answer : Except Failure α} (h : s.Sound R fine stopped w)
    (htakes : Begun.Takes (.ok s) steps (.ended answer)) (hamid : Amid R w steps v) :
    Fares fine stopped answer v := by
  induction s generalizing w steps with
  | done a =>
      obtain ⟨rfl, hend⟩ := htakes.of_done
      rw [Begun.ended_eq_ok_done hend]
      exact h v hamid
  | step act next ih =>
      obtain ⟨u, u', r, more, rfl, hrun, htakes⟩ := htakes.of_step
      obtain ⟨hwu, hstep, hlater⟩ := hamid
      obtain ⟨-, hanswer⟩ := h u hwu r u' hrun
      cases r with
      | ok b => exact ih b hanswer htakes hlater
      | error e =>
          obtain ⟨rfl, hend⟩ := htakes.of_error
          rw [Begun.ended_eq_error hend]
          exact hanswer v hlater

end Strand.Sound

/-- **Sound strands** that are worked on together keep to their relation, and what
    each of them comes to is as it should be. -/
theorem Worked.sound {pooled : Bool} {f : ι → Strand α} {labels : List ι} {w v : World}
    {answer : Except Failure (List α)} {portions : List (Portion ι α)}
    {whole : List (World × World)} (h : Worked pooled f labels w answer v portions whole)
    (hR : Lasting R) {fine : ι → α → World → Prop}
    (hsound : ∀ i ∈ labels, (f i).Sound R (fine i) stopped w) :
    R w v ∧ ∀ p ∈ portions, ∀ answer, p.outcome = some answer →
      Fares (fine p.label) stopped answer v := by
  have hlabel : ∀ p ∈ portions, (f p.label).Sound R (fine p.label) stopped w := fun p hp =>
    hsound _ (h.labels ▸ List.mem_map_of_mem hp)
  have hguarded : ∀ l ∈ portions.map Portion.steps, Guarded R w l := by
    intro l hl
    obtain ⟨p, hp, rfl⟩ := List.mem_map.mp hl
    have hfollows := h.follows p hp
    unfold Portion.Follows at hfollows
    split at hfollows
    · rw [hfollows]
      trivial
    · exact (hlabel p hp).guarded hfollows
  obtain ⟨hlasts, hamid⟩ := h.woven.amid hR h.leads hguarded
  refine ⟨hlasts, fun p hp answer hanswer => ?_⟩
  have hfollows := h.follows p hp
  unfold Portion.Follows at hfollows
  rw [hanswer] at hfollows
  exact (hlabel p hp).ends hfollows (hamid _ (List.mem_map_of_mem hp))

end

end AheadOfTime
