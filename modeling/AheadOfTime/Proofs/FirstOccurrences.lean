import AheadOfTime.Target
import Mathlib.Data.List.Nodup

/-! # First occurrences

    A list without its repetitions holds what the list holds, each element once, in
    the order of their places in the list.  Leaving elements out commutes with
    leaving repetitions out, and nothing happens to a list that has none. -/

namespace AheadOfTime

variable {α β : Type} [DecidableEq α] [DecidableEq β]

theorem distinct_cons (a : α) (later : List α) :
    distinct (a :: later) = a :: (distinct later).filter (· ≠ a) := rfl

/-- Nothing is lost. -/
theorem mem_distinct {a : α} {l : List α} : a ∈ distinct l ↔ a ∈ l := by
  induction l with
  | nil => exact Iff.rfl
  | cons b later ih =>
      rw [distinct_cons, List.mem_cons, List.mem_cons, List.mem_filter, ih, decide_eq_true_eq]
      by_cases hab : a = b
      · simp [hab]
      · simp [hab]

/-- Nothing is twice in it. -/
theorem nodup_distinct (l : List α) : (distinct l).Nodup := by
  induction l with
  | nil => exact List.nodup_nil
  | cons a later ih =>
      rw [distinct_cons]
      exact List.nodup_cons.mpr ⟨fun hin => by simp at hin, ih.filter _⟩

/-- The first of all occurrences is in front. -/
theorem head?_distinct (l : List α) : (distinct l).head? = l.head? := by
  cases l <;> rfl

/-- There is nothing to leave out of a list without repetitions. -/
theorem distinct_of_nodup {l : List α} (h : l.Nodup) : distinct l = l := by
  induction l with
  | nil => rfl
  | cons a later ih =>
      obtain ⟨hnew, hlater⟩ := List.nodup_cons.mp h
      rw [distinct_cons, ih hlater, List.filter_eq_self.mpr]
      intro b hb
      rw [decide_eq_true_eq]
      rintro rfl
      exact hnew hb

/-- The first of elements that are all the same is the only one. -/
theorem distinct_eq_singleton {a : α} {l : List α} (hne : l ≠ []) (hall : ∀ b ∈ l, b = a) :
    distinct l = [a] := by
  induction l with
  | nil => exact absurd rfl hne
  | cons b later ih =>
      obtain ⟨rfl, hlater⟩ := List.forall_mem_cons.mp hall
      rw [distinct_cons]
      by_cases hempty : later = []
      · rw [hempty]
        rfl
      · rw [ih hempty hlater, List.filter_cons_of_neg (by simp), List.filter_nil]

/-- It is the same to leave elements out before or afterwards. -/
theorem distinct_filter (p : α → Bool) (l : List α) :
    distinct (l.filter p) = (distinct l).filter p := by
  induction l with
  | nil => rfl
  | cons a later ih =>
      rw [distinct_cons]
      by_cases ha : p a = true
      · rw [List.filter_cons_of_pos ha, List.filter_cons_of_pos ha, distinct_cons, ih,
          List.filter_comm]
      · rw [List.filter_cons_of_neg ha, List.filter_cons_of_neg ha, ih, List.filter_filter]
        -- what passes the test cannot be the element that does not
        refine List.filter_congr fun b _ => ?_
        by_cases hb : b = a
        · rw [hb, eq_false_of_ne_true ha]
          rfl
        · rw [decide_eq_true hb, Bool.and_true]

/-- First occurrences stand in the order of their places in the list. -/
theorem pairwise_idxOf_distinct (l : List α) :
    (distinct l).Pairwise fun a b => l.idxOf a < l.idxOf b := by
  induction l with
  | nil => exact .nil
  | cons a later ih =>
      -- what is not the first element stands one place further than in the rest
      have hnext : ∀ {b : α}, b ∈ (distinct later).filter (· ≠ a) →
          (a :: later).idxOf b = later.idxOf b + 1 := by
        intro b hb
        have hne : b ≠ a := by simpa using (List.mem_filter.mp hb).2
        exact List.idxOf_cons_ne later (Ne.symm hne)
      rw [distinct_cons, List.pairwise_cons]
      constructor
      · intro b hb
        rw [List.idxOf_cons_self, hnext hb]
        exact Nat.succ_pos _
      · refine (ih.filter _).imp_of_mem fun {b c} hb hc hlt => ?_
        rw [hnext hb, hnext hc]
        exact Nat.succ_lt_succ hlt

/-- Other names for the elements do not change their places. -/
theorem idxOf_map_of_injective {f : α → β} (hf : Function.Injective f) (a : α) (l : List α) :
    (l.map f).idxOf (f a) = l.idxOf a := by
  induction l with
  | nil => rfl
  | cons b later ih =>
      rw [List.map_cons]
      by_cases hb : b = a
      · rw [hb, List.idxOf_cons_self, List.idxOf_cons_self]
      · rw [List.idxOf_cons_ne _ (hf.ne hb), List.idxOf_cons_ne _ hb, ih]

end AheadOfTime
