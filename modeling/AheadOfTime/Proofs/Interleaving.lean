import Mathlib.Data.List.Perm.Basic
import Mathlib.Data.List.Basic

/-! # Interleaving lists

    What several strands of work do is one list in the order of time, and every
    strand has its own part of that list in its own order.  `Shuffled` says this of
    two lists and `Interleaves` of any number of them. -/

namespace AheadOfTime

variable {α β : Type}

/-- What comes of lists in a row is what comes of each of them, in a row. -/
theorem flatMap_flatten (ls : List (List α)) (f : α → List β) :
    ls.flatten.flatMap f = (ls.map fun l => l.flatMap f).flatten := by
  rw [List.flatMap_def, List.map_flatten, List.flatten_flatten, List.map_map]
  rfl

/-- The whole takes the elements of two lists, those of each list in their order. -/
inductive Shuffled : List α → List α → List α → Prop where
  | nil : Shuffled [] [] []
  | left {a : α} {l r whole : List α} : Shuffled l r whole → Shuffled (a :: l) r (a :: whole)
  | right {a : α} {l r whole : List α} : Shuffled l r whole → Shuffled l (a :: r) (a :: whole)

/-- The whole takes the elements of all the lists, those of each list in their
    order. -/
inductive Interleaves : List (List α) → List α → Prop where
  | nil : Interleaves [] []
  | cons {l : List α} {ls : List (List α)} {rest whole : List α} :
      Interleaves ls rest → Shuffled l rest whole → Interleaves (l :: ls) whole

namespace Shuffled

variable {l r whole : List α}

theorem nil_left (r : List α) : Shuffled [] r r := by
  induction r with
  | nil => exact .nil
  | cons a r ih => exact .right ih

theorem nil_right (l : List α) : Shuffled l [] l := by
  induction l with
  | nil => exact .nil
  | cons a l ih => exact .left ih

/-- A list shuffled with nothing is that list. -/
theorem eq_of_nil_left (h : Shuffled [] r whole) : whole = r := by
  generalize hnil : ([] : List α) = l at h
  induction h with
  | nil => rfl
  | left => exact nomatch hnil
  | right _ ih => rw [ih hnil]

theorem eq_of_nil_right (h : Shuffled l [] whole) : whole = l := by
  generalize hnil : ([] : List α) = r at h
  induction h with
  | nil => rfl
  | left _ ih => rw [ih hnil]
  | right => exact nomatch hnil

/-- Two shuffles behind each other shuffle what is behind each other. -/
theorem append {l' r' whole' : List α} (h : Shuffled l r whole) (h' : Shuffled l' r' whole') :
    Shuffled (l ++ l') (r ++ r') (whole ++ whole') := by
  induction h with
  | nil => exact h'
  | left _ ih => exact .left ih
  | right _ ih => exact .right ih

/-- One list behind the other is a way to shuffle them. -/
theorem concat (l r : List α) : Shuffled l r (l ++ r) := by
  have h := (nil_right l).append (nil_left r)
  rwa [List.append_nil, List.nil_append] at h

/-- A shuffle of what each entry stands for. -/
theorem flatMap (h : Shuffled l r whole) (f : α → List β) :
    Shuffled (l.flatMap f) (r.flatMap f) (whole.flatMap f) := by
  induction h with
  | nil => exact .nil
  | @left a l r whole _ ih =>
      rw [List.flatMap_cons, List.flatMap_cons]
      exact (nil_right (f a)).append ih
  | @right a l r whole _ ih =>
      rw [List.flatMap_cons, List.flatMap_cons]
      exact (nil_left (f a)).append ih

theorem map (h : Shuffled l r whole) (f : α → β) :
    Shuffled (l.map f) (r.map f) (whole.map f) := by
  induction h with
  | nil => exact .nil
  | left _ ih => exact .left ih
  | right _ ih => exact .right ih

/-- A shuffle holds all entries of both lists, and no others. -/
theorem perm (h : Shuffled l r whole) : whole.Perm (l ++ r) := by
  induction h with
  | nil => exact .nil
  | left _ ih => exact ih.cons _
  | right _ ih => exact (ih.cons _).trans List.perm_middle.symm

end Shuffled

namespace Interleaves

variable {ls ms : List (List α)} {whole : List α}

/-- The only order of one list is its own. -/
theorem singleton_iff {l : List α} : Interleaves [l] whole ↔ whole = l := by
  constructor
  · intro h
    obtain _ | ⟨_ | _, hshuffled⟩ := h
    exact hshuffled.eq_of_nil_right
  · rintro rfl
    exact .cons .nil (Shuffled.nil_right whole)

/-- Two interleavings behind each other. -/
theorem append {whole' : List α} (h : Interleaves ls whole) (h' : Interleaves ms whole') :
    Interleaves (ls ++ ms) (whole ++ whole') := by
  induction h with
  | nil => exact h'
  | cons _ hshuffled ih =>
      have hmore := hshuffled.append (Shuffled.nil_left whole')
      rw [List.append_nil] at hmore
      exact .cons ih hmore

/-- What one of the lists is extended by may come last. -/
theorem extend {before after : List (List α)} {l : List α} (more : List α)
    (h : Interleaves (before ++ l :: after) whole) :
    Interleaves (before ++ (l ++ more) :: after) (whole ++ more) := by
  induction before generalizing whole with
  | nil =>
      obtain _ | ⟨hafter, hshuffled⟩ := h
      have hmore := hshuffled.append (Shuffled.nil_right more)
      rw [List.append_nil] at hmore
      exact .cons hafter hmore
  | cons first before ih =>
      obtain _ | ⟨hrest, hshuffled⟩ := h
      have hmore := hshuffled.append (Shuffled.nil_left more)
      rw [List.append_nil] at hmore
      exact .cons (ih hrest) hmore

/-- The first element of the whole is the first one of some list, and what is left
    of the lists interleaves to the rest. -/
theorem head {a : α} (h : Interleaves ls (a :: whole)) :
    ∃ before l after, ls = before ++ (a :: l) :: after ∧
      Interleaves (before ++ l :: after) whole := by
  generalize hall : a :: whole = all at h
  induction h generalizing whole with
  | nil => exact nomatch hall
  | @cons first ls rest all hrest hshuffled ih =>
      subst hall
      cases hshuffled with
      | left hshuffled => exact ⟨[], _, ls, rfl, .cons hrest hshuffled⟩
      | right hshuffled =>
          obtain ⟨before, l, after, rfl, hothers⟩ := ih rfl
          exact ⟨first :: before, l, after, rfl, .cons hothers hshuffled⟩

/-- Where nothing comes of the lists, there is nothing in any of them. -/
theorem eq_nil_of_nil (h : Interleaves ls []) {l : List α} (hl : l ∈ ls) : l = [] := by
  generalize hnil : ([] : List α) = whole at h
  induction h with
  | nil => exact nomatch hl
  | cons _ hshuffled ih =>
      subst hnil
      cases hshuffled
      rcases List.mem_cons.mp hl with rfl | hl
      · rfl
      · exact ih hl rfl

/-- An interleaving of what each entry stands for. -/
theorem flatMap (h : Interleaves ls whole) (f : α → List β) :
    Interleaves (ls.map fun l => l.flatMap f) (whole.flatMap f) := by
  induction h with
  | nil => exact .nil
  | cons _ hshuffled ih => exact .cons ih (hshuffled.flatMap f)

theorem map (h : Interleaves ls whole) (f : α → β) :
    Interleaves (ls.map (List.map f)) (whole.map f) := by
  have hflat := h.flatMap fun a => [f a]
  simpa only [List.flatMap_singleton', List.flatMap_pure_eq_map, ← List.map_eq_flatMap] using hflat

/-- An interleaving holds all entries of all lists, and no others. -/
theorem perm (h : Interleaves ls whole) : whole.Perm ls.flatten := by
  induction h with
  | nil => exact .nil
  | cons _ hshuffled ih => exact hshuffled.perm.trans (ih.append_left _)

/-- Each entry comes from one of the lists. -/
theorem mem_iff (h : Interleaves ls whole) {a : α} : a ∈ whole ↔ ∃ l ∈ ls, a ∈ l := by
  rw [h.perm.mem_iff, List.mem_flatten]

end Interleaves

end AheadOfTime
