import AheadOfTime.Proofs.Course
import AheadOfTime.Proofs.Recognition
import Mathlib.Data.List.Induction

/-! # The course of a scratch session

    A session lives through events: files are asked for, it is entered, left and
    cleaned up, and meanwhile others do with the files what they like.  Its course is
    the list of these moments, each with the worlds around it and with its answer.

    `session_keeps_account` says what holds in every course.  What a session knows of
    its directory and of its files is what the moments so far have come to
    (`Ongoing`), a refused request changes nothing, and a session that was cleaned up
    stays over (`Over`).  That no file is handed out twice rests on where the
    identifier stands in a name: behind the last hyphen, whatever the stem looks
    like (`fileName_inj`). -/

namespace AheadOfTime

/-! ## Names -/

namespace Scratch

/-- What may stand at the end of a name without changing where the name belongs, nor
    where the identifier is found in it. -/
def IsPlain (extension : String) : Prop := '/' ∉ extension.toList ∧ '-' ∉ extension.toList

/-- A character that a name may have in front of its extension. -/
def IsSafe (c : Char) : Prop := Text.isWord c = true ∨ c = '.' ∨ c = '-'

/-- A stem is made safe in front of a name. -/
theorem isSafe_of_mem_safeStem (stem : String) : ∀ c ∈ (safeStem stem).toList, IsSafe c := by
  have hkept : ∀ c, IsSafe (if Text.isWord c ∨ c = '.' ∨ c = '-' then c else '_') := by
    intro c
    split
    · assumption
    · exact .inl (by decide +kernel)
  unfold safeStem
  dsimp only
  split
  · intro c hc
    have hword : "scratch".toList.all Text.isWord = true := by decide +kernel
    exact .inl (List.all_eq_true.mp hword c hc)
  · intro c hc
    rw [String.toList_ofList] at hc
    obtain ⟨c', -, rfl⟩ := List.mem_map.mp hc
    exact hkept c'

end Scratch

/-- The identifiers with these numbers, above `lo` and not above `hi`, are numerals of
    twelve digits, and different ones. -/
structure Host.Identifies (host : Host) (lo hi : Nat) : Prop where
  length : ∀ n, lo < n → n ≤ hi → (host.scratchId n).toList.length = 12
  digits : ∀ n, lo < n → n ≤ hi → ∀ c ∈ (host.scratchId n).toList, c ∈ Text.lowerHexDigits
  distinct : ∀ m n, lo < m → m < n → n ≤ hi → host.scratchId m ≠ host.scratchId n

/-- Fewer identifiers are identifiers as well. -/
theorem Host.Identifies.mono {host : Host} {lo hi hi' : Nat} (h : host.Identifies lo hi)
    (hle : hi' ≤ hi) : host.Identifies lo hi' where
  length n hlo hn := h.length n hlo (hn.trans hle)
  digits n hlo hn := h.digits n hlo (hn.trans hle)
  distinct m n hlo hlt hn := h.distinct m n hlo hlt (hn.trans hle)

namespace Scratch

theorem not_mem_of_digits {id : String} (hid : ∀ c ∈ id.toList, c ∈ Text.lowerHexDigits) {c : Char}
    (hc : c ∉ Text.lowerHexDigits) : c ∉ id.toList :=
  fun hin => hc (hid c hin)

/-- **A name tells its identifier**: behind the last hyphen stand its digits, and it
    is known how many there are. -/
theorem fileName_inj {stem stem' id id' extension extension' : String}
    (hid : ∀ c ∈ id.toList, c ∈ Text.lowerHexDigits)
    (hid' : ∀ c ∈ id'.toList, c ∈ Text.lowerHexDigits)
    (hlength : id.toList.length = id'.toList.length)
    (hextension : IsPlain extension) (hextension' : IsPlain extension')
    (h : fileName stem id extension = fileName stem' id' extension') : id = id' := by
  have hhyphen : '-' ∉ Text.lowerHexDigits := by decide
  have htail := tail_of_fileName stem (not_mem_of_digits hid hhyphen) hextension.2
  rw [h, tail_of_fileName stem' (not_mem_of_digits hid' hhyphen) hextension'.2] at htail
  exact String.toList_inj.mp (List.append_inj htail hlength.symm).1.symm

/-- The path of the file with this number. -/
def filePath (host : Host) (d : Path) (n : Nat) (stem extension : String) : Path :=
  d.child (fileName stem (host.scratchId n) extension)

variable {host : Host} {d : Path} {lo hi n : Nat} {stem extension : String}

/-- The name that a file has in its directory. -/
theorem filePath_eq (hids : host.Identifies lo hi) (hlo : lo < n) (hhi : n ≤ hi)
    (hplain : IsPlain extension) : filePath host d n stem extension
      = ⟨d.anchor, d.parts ++ [fileName stem (host.scratchId n) extension]⟩ := by
  obtain ⟨hslash, hdot, -⟩ := isProper_fileName stem
    (not_mem_of_digits (hids.digits n hlo hhi) (by decide)) hplain.1
  exact d.child_of_name hslash hdot

/-- **Files with different numbers** have different paths. -/
theorem filePath_ne {m : Nat} {stem' extension' : String} (hids : host.Identifies lo hi)
    (hlo : lo < m) (hlt : m < n) (hhi : n ≤ hi) (hplain : IsPlain extension')
    (hplain' : IsPlain extension) :
    filePath host d m stem' extension' ≠ filePath host d n stem extension := by
  intro hsame
  rw [filePath_eq hids hlo (by omega) hplain, filePath_eq hids (by omega) hhi hplain'] at hsame
  have hname := (List.cons.inj (List.append_cancel_left (Path.mk.inj hsame).2)).1
  have hlength := (hids.length m hlo (by omega)).trans (hids.length n (by omega) hhi).symm
  exact hids.distinct m n hlo hlt hhi (fileName_inj (hids.digits m hlo (by omega))
    (hids.digits n (by omega) hhi) hlength hplain hplain' hname)

/-- The path lies directly in the directory, and its name is safe up to the
    extension. -/
structure Places (d : Path) (extension : String) (path : Path) : Prop where
  parent : path.parent = d
  isScratch : d.IsScratch path
  name : ∃ front, path.name = front ++ extension ∧ ∀ c ∈ front.toList, IsSafe c

/-- **A file** is placed directly in its directory, under a safe name. -/
theorem places_filePath (hids : host.Identifies lo hi) (hlo : lo < n) (hhi : n ≤ hi)
    (hplain : IsPlain extension) : Places d extension (filePath host d n stem extension) := by
  have hdigits := hids.digits n hlo hhi
  have hword : Text.lowerHexDigits.all Text.isWord = true := by decide +kernel
  refine ⟨?_, isScratch_fileName d stem (not_mem_of_digits hdigits (by decide)) hplain.1, ?_⟩
  · rw [filePath_eq hids hlo hhi hplain]
    show Path.mk d.anchor (d.parts ++ [_]).dropLast = d
    rw [List.dropLast_concat]
  · refine ⟨safeStem stem ++ "-" ++ host.scratchId n, ?_, fun c hc => ?_⟩
    · rw [filePath_eq hids hlo hhi hplain]
      show (d.parts ++ [_]).getLast?.getD "" = _
      rw [List.getLast?_concat]
      rfl
    · rw [String.toList_append, String.toList_append, List.mem_append, List.mem_append] at hc
      rcases hc with (hc | hc) | hc
      · exact isSafe_of_mem_safeStem stem c hc
      · exact .inr (.inr (List.mem_singleton.mp hc))
      · exact .inl (List.all_eq_true.mp hword c (hdigits c hc))

end Scratch

/-! ## Single events -/

/-- The world with a scratch directory, which was made at the location. -/
def World.withDirectory (w : World) (l : Location) : World :=
  { w with
    scratchDirectories := w.scratchDirectories + 1
    files := w.files.put l .directory
    scratch := { w.scratch with directory := some (.ofString w.scratchText) } }

namespace Build

/-- The ways in which a request for a scratch file comes out. -/
inductive Allocates (host : Host) (stem extension : String) (w : World) :
    Except Failure Path × World → Prop
  /-- The session is over. -/
  | closed : w.scratch.isClosed = true →
      Allocates host stem extension w (.error (.problem (.scratchClosed stem)), w)
  /-- There is no directory yet, and it cannot be made. -/
  | refused (fault : Fault) : w.scratch.isClosed = false → w.scratch.directory = none →
      Allocates host stem extension w
        (.error (.fault fault), { w with scratchDirectories := w.scratchDirectories + 1 })
  /-- The directory is made for the file. -/
  | first (l : Location) (path : Path) : w.scratch.isClosed = false → w.scratch.directory = none →
      w.files.locate .entry (.ofString w.scratchText) = .ok l → w.files.entryAt? l = none →
      path = Scratch.filePath host (.ofString w.scratchText) (w.scratchIds + 1) stem extension →
      Allocates host stem extension w (.ok path, (w.withDirectory l).withScratchFile path)
  /-- The directory is there. -/
  | next (d path : Path) : w.scratch.isClosed = false → w.scratch.directory = some d →
      path = Scratch.filePath host d (w.scratchIds + 1) stem extension →
      Allocates host stem extension w (.ok path, w.withScratchFile path)

/-- **A request for a scratch file** comes out in one of the ways listed. -/
theorem allocates (host : Host) (stem extension : String) (w : World) :
    Allocates host stem extension w ((allocate host stem extension).run w) := by
  have hhands := handsOut host stem extension w
  have hgives := givesDirectory w
  generalize (allocate host stem extension).run w = outcome at hhands ⊢
  cases hhands with
  | closed hclosed => exact .closed hclosed
  | refused hopen hdirectory =>
      rw [hdirectory] at hgives
      cases hgives with
      | refused hnone hrun =>
          rw [Disk.call_error hrun]
          exact .refused _ hopen hnone
  | given hopen hdirectory hpath =>
      rw [hdirectory] at hgives
      cases hgives with
      | standing hsome => exact .next _ _ hopen hsome hpath
      | made hnone hrun =>
          obtain ⟨l, hlocate, hfree, rfl⟩ := Disk.makeDirectoryAs_ok hrun
          exact .first l _ hopen hnone hlocate hfree hpath

/-- **A refused request** changes neither the session nor the files. -/
theorem allocate_error {host : Host} {stem extension : String} {w v : World} {e : Failure}
    (h : (allocate host stem extension).run w = (.error e, v)) :
    v.scratch = w.scratch ∧ v.files = w.files := by
  have hways := allocates host stem extension w
  rw [h] at hways
  cases hways with
  | closed _ => exact ⟨rfl, rfl⟩
  | refused _ _ _ => exact ⟨rfl, rfl⟩

end Build

namespace Scratch

/-- Nothing was asked of the session yet. -/
structure IsNew (s : Scratch) : Prop where
  directory : s.directory = none
  files : s.files = []
  isOpen : s.isClosed = false

/-- The session knows of nothing, and will not. -/
structure IsOver (s : Scratch) : Prop where
  directory : s.directory = none
  files : s.files = []
  isClosed : s.isClosed = true

end Scratch

theorem World.isOver_cleaned (files : FileTree) (w : World) : (w.cleaned files).scratch.IsOver :=
  ⟨rfl, rfl, rfl⟩

/-- There is nothing to clean up any more. -/
theorem Build.cleanUp_of_isOver {w : World} (h : w.scratch.IsOver) :
    cleanUp.run w = (.ok (), w) := by
  have hcleaned : w.cleaned w.files = w := by
    obtain ⟨hdirectory, hfiles, hclosed⟩ := h
    unfold World.cleaned
    rw [← hdirectory, ← hfiles, ← hclosed]
  unfold cleanUp
  rw [run_bind_ok (run_get w), run_bind_ok (run_set _ w), h.files, h.directory]
  exact congrArg (Prod.mk _) hcleaned

namespace Scratch

/-- What happens to a session: something is asked of it, or others have changed the
    files. -/
inductive Event where
  | allocate (stem extension : String)
  | enter
  | exit
  | cleanUp
  | meanwhile (files : FileTree)

/-- The events that a session ends with. -/
inductive Event.Ends : Event → Prop
  | exit : Ends .exit
  | cleanUp : Ends .cleanUp

/-- What the event does; it may answer a path. -/
def Event.perform (host : Host) : Event → Build (Option Path)
  | .allocate stem extension => some <$> Build.allocate host stem extension
  | .enter => return none
  | .exit => do
    Build.cleanUp
    return none
  | .cleanUp => do
    Build.cleanUp
    return none
  | .meanwhile files => do
    modify fun w => { w with files }
    return none

/-- An event between two worlds, and what it answered. -/
structure Moment where
  event : Event
  before : World
  answer : Except Failure (Option Path)
  after : World

namespace Moment

/-- The path that was handed out, if there was one. -/
def path? (m : Moment) : Option Path := m.answer.toOption.join

/-- A moment has handed out a path exactly if that is its answer. -/
theorem path?_eq_some_iff {m : Moment} {path : Path} :
    m.path? = some path ↔ m.answer = .ok (some path) := by
  obtain ⟨_, _, answer, _⟩ := m
  rcases answer with e | _ | path'
  · exact iff_of_false nofun nofun
  · exact iff_of_false nofun nofun
  · exact ⟨fun h => congrArg (Except.ok ∘ some) (Option.some.inj h),
      fun h => Except.ok.inj h⟩

/-- The session itself did something, and no other. -/
def IsOwn (m : Moment) : Prop := ∀ files, m.event ≠ .meanwhile files

/-- The moment left the files as they were, unless others changed them. -/
def LeavesFiles (m : Moment) : Prop := m.IsOwn → m.after.files = m.before.files

/-- The moment made the next scratch directory at a free place, and nothing else. -/
def Makes (m : Moment) (d : Path) : Prop :=
  d = .ofString m.before.scratchText ∧ ∃ l, m.before.files.locate .entry d = .ok l ∧
    m.before.files.entryAt? l = none ∧ m.after.files = m.before.files.put l .directory

end Moment

/-- The event as it happens in a world. -/
def Event.moment (host : Host) (e : Event) (w : World) : Moment :=
  ⟨e, w, ((e.perform host).run w).1, ((e.perform host).run w).2⟩

/-- The moments of a session, one event after the other. -/
def course (host : Host) : List Event → World → List Moment
  | [], _ => []
  | e :: later, w => e.moment host w :: course host later (e.moment host w).after

/-- The paths that were handed out, in this order. -/
def handedOut (moments : List Moment) : List Path := moments.filterMap Moment.path?

end Scratch

/-- The world that the moments have come to. -/
def World.behind (w : World) (moments : List Scratch.Moment) : World :=
  moments.foldl (fun _ m => m.after) w

namespace Scratch

variable {host : Host} {w v : World} {e : Event} {events : List Event} {m : Moment}
  {moments : List Moment} {d path : Path} {lo : Nat} {stem extension : String}

/-! ## Courses -/

/-- The last path that was handed out is that of the last moment. -/
theorem handedOut_concat (moments : List Moment) (m : Moment) :
    handedOut (moments ++ [m]) = handedOut moments ++ m.path?.toList := by
  unfold handedOut
  rw [List.filterMap_append]
  rcases hm : m.path? with _ | path
  · rw [List.filterMap_cons_none hm]
    rfl
  · rw [List.filterMap_cons_some hm]
    rfl

/-- A course goes on from the world that it has come to. -/
theorem course_append (events later : List Event) (w : World) : course host (events ++ later) w
    = course host events w ++ course host later (w.behind (course host events w)) := by
  induction events generalizing w with
  | nil => rfl
  | cons e events ih => exact congrArg (e.moment host w :: ·) (ih _)

/-- The last moment has left the world that a course has come to. -/
theorem behind_concat (w : World) (moments : List Moment) (m : Moment) :
    w.behind (moments ++ [m]) = m.after := by
  unfold World.behind
  rw [List.foldl_append]
  rfl

/-- What happens in a course is its event, in the world that it finds; and the course
    goes on from the world that it leaves. -/
theorem course_split {earlier later : List Moment}
    (h : course host events w = earlier ++ m :: later) :
    m = m.event.moment host m.before ∧ ∃ rest, later = course host rest m.after := by
  induction events generalizing w earlier with
  | nil => exact absurd h.symm (List.append_ne_nil_of_right_ne_nil _ (List.cons_ne_nil _ _))
  | cons e events ih =>
      cases earlier with
      | nil =>
          obtain ⟨rfl, rfl⟩ := List.cons.inj h
          exact ⟨rfl, events, rfl⟩
      | cons first earlier => exact ih (List.cons.inj h).2

/-- What happens in a course is its event, in the world that it finds. -/
theorem moment_of_mem (h : m ∈ course host events w) : m = m.event.moment host m.before := by
  obtain ⟨earlier, later, hsplit⟩ := List.append_of_mem h
  exact (course_split hsplit).1

/-- A request for a file is answered by the path, or with the failure. -/
theorem moment_allocate (host : Host) (stem extension : String) (w : World) :
    (Event.allocate stem extension).moment host w = ⟨.allocate stem extension, w,
      ((Build.allocate host stem extension).run w).1.map some,
      ((Build.allocate host stem extension).run w).2⟩ := by
  have hrun : ((Event.allocate stem extension).perform host).run w = _ :=
    run_map some (Build.allocate host stem extension) w
  unfold Event.moment
  rw [hrun]
  rcases (Build.allocate host stem extension).run w with ⟨e | path, v⟩ <;> rfl

/-- An event that ends the session cleans it up. -/
theorem moment_of_ends (h : e.Ends) (host : Host) (w : World) : e.moment host w
    = ⟨e, w, (Build.cleanUp.run w).1.map fun _ => none, (Build.cleanUp.run w).2⟩ := by
  have hrun : (e.perform host).run w = (Build.cleanUp >>= fun _ => pure none).run w := by
    cases h <;> rfl
  unfold Event.moment
  rw [hrun, run_bind]
  rcases Build.cleanUp.run w with ⟨failure | _, v⟩ <;> rfl

theorem isOver_of_ends (h : e.Ends) (host : Host) (w : World) :
    (e.moment host w).after.scratch.IsOver := by
  rw [moment_of_ends h, Build.run_cleanUp]
  exact w.isOver_cleaned _

/-! ## Sessions that are over -/

/-- Nothing comes of what is asked of a session that is over: a request is not valid
    any more. -/
structure Moment.IsVain (m : Moment) : Prop where
  isOver : m.after.scratch.IsOver
  refuses : ∀ stem extension, m.event = .allocate stem extension →
    m.answer = .error (.problem (.scratchClosed stem)) ∧
      (Problem.scratchClosed stem).report.code = .validation ∧ m.after = m.before
  idle : m.event.Ends → m.answer = .ok none ∧ m.after = m.before

/-- To ask in vain is to change nothing. -/
theorem isVain_moment (h : w.scratch.IsOver) (host : Host) (e : Event) :
    (e.moment host w).IsVain := by
  cases e with
  | allocate stem extension =>
      rw [moment_allocate, Build.run_allocate, if_pos h.isClosed]
      refine ⟨h, fun stem' extension' hevent => ?_, nofun⟩
      cases hevent
      exact ⟨rfl, rfl, rfl⟩
  | enter => exact ⟨h, nofun, nofun⟩
  | meanwhile files => exact ⟨h, nofun, nofun⟩
  | exit | cleanUp =>
      rw [moment_of_ends (by constructor), Build.cleanUp_of_isOver h]
      exact ⟨h, nofun, fun _ => ⟨rfl, rfl⟩⟩

/-- **A session that is over** stays over. -/
theorem isVain_of_mem_course (h : w.scratch.IsOver) : ∀ m ∈ course host events w, m.IsVain := by
  induction events generalizing w with
  | nil => exact List.forall_mem_nil _
  | cons e events ih =>
      have hfirst := isVain_moment h host e
      exact List.forall_mem_cons.mpr ⟨hfirst, ih hfirst.isOver⟩

/-! ## Sessions that go on -/

/-- The directory was made at one of the moments, and nothing was made at any other. -/
def MadeOnce (d : Path) (moments : List Moment) : Prop :=
  ∃ earlier m later, moments = earlier ++ m :: later ∧ m.Makes d ∧
    ∀ m' ∈ earlier ++ later, m'.LeavesFiles

/-- A moment that leaves the files makes no directory again. -/
theorem MadeOnce.concat (h : MadeOnce d moments) (hm : m.LeavesFiles) :
    MadeOnce d (moments ++ [m]) := by
  obtain ⟨earlier, maker, later, rfl, hmakes, hothers⟩ := h
  refine ⟨earlier, maker, later ++ [m], by rw [List.append_assoc]; rfl, hmakes, ?_⟩
  rw [← List.append_assoc]
  exact List.forall_mem_append.mpr ⟨hothers, List.forall_mem_singleton.mpr hm⟩

/-- A directory is made at the last moment, if at none before. -/
theorem MadeOnce.last (h : ∀ m ∈ moments, m.LeavesFiles) (hm : m.Makes d) :
    MadeOnce d (moments ++ [m]) :=
  ⟨moments, m, [], rfl, hm, by rw [List.append_nil]; exact h⟩

/-- What a session knows while nothing has ended it: the directory, if and only if a
    file was handed out, and then it was made at one moment; and all the files that
    were handed out, which are different ones. -/
structure Accounts (moments : List Moment) (s : Scratch) : Prop where
  isOpen : s.isClosed = false
  directory : s.directory ≠ none ↔ handedOut moments ≠ []
  made : ∀ d, s.directory = some d → MadeOnce d moments
  unmade : s.directory = none → ∀ m ∈ moments, m.LeavesFiles
  files : s.files = handedOut moments
  nodup : s.files.Nodup

namespace Accounts

variable {s : Scratch}

/-- A session in which nothing has happened. -/
theorem nil (h : s.IsNew) : Accounts [] s where
  isOpen := h.isOpen
  directory := iff_of_false (not_not_intro h.directory) (not_not_intro rfl)
  made _ hd := nomatch h.directory.symm.trans hd
  unmade _ := List.forall_mem_nil _
  files := h.files
  nodup := h.files ▸ List.nodup_nil

/-- A moment that answers no path, and leaves the session and the files alone. -/
theorem idle (h : Accounts moments s) (hnone : m.path? = none) (hfiles : m.LeavesFiles) :
    Accounts (moments ++ [m]) s := by
  have hsame : handedOut (moments ++ [m]) = handedOut moments := by
    rw [handedOut_concat, hnone]
    exact List.append_nil _
  constructor
  case isOpen => exact h.isOpen
  case directory => rw [hsame]; exact h.directory
  case made => exact fun d hd => (h.made d hd).concat hfiles
  case unmade =>
    exact fun hnone => List.forall_mem_append.mpr
      ⟨h.unmade hnone, List.forall_mem_singleton.mpr hfiles⟩
  case files => rw [hsame]; exact h.files
  case nodup => exact h.nodup

/-- A moment that hands out a new file, in the directory that the session has, or that
    it has now. -/
theorem handOut (h : Accounts moments s) (hanswer : m.answer = .ok (some path))
    (hnew : path ∉ s.files) (hmade : MadeOnce d (moments ++ [m])) :
    Accounts (moments ++ [m]) { s with directory := some d, files := s.files ++ [path] } := by
  have hgrown : handedOut (moments ++ [m]) = handedOut moments ++ [path] := by
    rw [handedOut_concat, Moment.path?_eq_some_iff.mpr hanswer]
    rfl
  constructor
  case isOpen => exact h.isOpen
  case directory =>
    rw [hgrown]
    exact iff_of_true nofun (List.append_ne_nil_of_right_ne_nil _ (List.cons_ne_nil _ _))
  case made =>
    rintro d' hd'
    rw [← Option.some.inj hd']
    exact hmade
  case unmade => exact nofun
  case files => rw [hgrown, ← h.files]
  case nodup =>
    exact List.nodup_append.mpr ⟨h.nodup, List.nodup_singleton _, fun a ha b hb hab =>
      hnew (List.mem_singleton.mp hb ▸ hab ▸ ha)⟩

end Accounts

/-- The session accounts for its moments, and all the files that were handed out lie
    in its directory. -/
structure Ongoing (moments : List Moment) (s : Scratch) : Prop extends Accounts moments s where
  places : ∀ m ∈ moments, ∀ stem extension path, m.event = .allocate stem extension →
    m.answer = .ok (some path) → ∃ d, s.directory = some d ∧ Places d extension path

/-- The file of the moment has a number above `lo`, which was given before this world. -/
def Numbers (host : Host) (lo : Nat) (w : World) (m : Moment) (path : Path) : Prop :=
  ∃ d n stem extension, w.scratch.directory = some d ∧ lo < n ∧ n ≤ w.scratchIds ∧
    m.event = .allocate stem extension ∧ IsPlain extension ∧
    path = filePath host d n stem extension

/-- The invariant of a session that goes on: what it knows, and how its files are
    numbered. -/
structure Tracks (host : Host) (lo : Nat) (moments : List Moment) (w : World) : Prop
    extends Accounts moments w.scratch where
  lower : lo ≤ w.scratchIds
  numbers : ∀ m ∈ moments, ∀ path, m.answer = .ok (some path) → Numbers host lo w m path

namespace Tracks

theorem nil (h : w.scratch.IsNew) : Tracks host w.scratchIds [] w where
  toAccounts := .nil h
  lower := Nat.le_refl _
  numbers := List.forall_mem_nil _

/-- A moment that leaves the session as it was is only counted. -/
theorem idle (h : Tracks host lo moments w) (hnone : m.path? = none)
    (hscratch : m.after.scratch = w.scratch) (hids : m.after.scratchIds = w.scratchIds)
    (hfiles : m.LeavesFiles) : Tracks host lo (moments ++ [m]) m.after := by
  constructor
  case toAccounts =>
    rw [hscratch]
    exact h.toAccounts.idle hnone hfiles
  case lower => rw [hids]; exact h.lower
  case numbers =>
    unfold Numbers
    rw [hscratch, hids]
    refine List.forall_mem_append.mpr ⟨h.numbers,
      List.forall_mem_singleton.mpr fun path hpath => ?_⟩
    exact nomatch hnone.symm.trans (Moment.path?_eq_some_iff.mpr hpath)

/-- The file with the next number is a new one. -/
theorem filePath_not_mem (h : Tracks host lo moments w)
    (hids : host.Identifies lo (w.scratchIds + 1)) (hplain : IsPlain extension)
    (hdirectory : ∀ d', w.scratch.directory = some d' → d' = d) :
    filePath host d (w.scratchIds + 1) stem extension ∉ w.scratch.files := by
  -- a file that was handed out before has a smaller number
  intro hin
  rw [h.files] at hin
  obtain ⟨m', hm', hpath'⟩ := List.mem_filterMap.mp hin
  obtain ⟨d', n, stem', extension', hd', hlo, hn, -, hplain', hsame⟩ :=
    h.numbers m' hm' _ (Moment.path?_eq_some_iff.mp hpath')
  obtain rfl := hdirectory d' hd'
  exact filePath_ne hids hlo (Nat.lt_succ_of_le hn) (Nat.le_refl _) hplain' hplain hsame.symm

/-- A moment that hands out the file with the next number. -/
theorem handOut (h : Tracks host lo moments w) (hids : host.Identifies lo (w.scratchIds + 1))
    (hplain : IsPlain extension) (hevent : m.event = .allocate stem extension)
    (hanswer : m.answer = .ok (some path))
    (hpath : path = filePath host d (w.scratchIds + 1) stem extension)
    (hscratch : m.after.scratch
      = { w.scratch with directory := some d, files := w.scratch.files ++ [path] })
    (hnext : m.after.scratchIds = w.scratchIds + 1)
    (hdirectory : ∀ d', w.scratch.directory = some d' → d' = d)
    (hmade : MadeOnce d (moments ++ [m])) : Tracks host lo (moments ++ [m]) m.after := by
  have hlower := h.lower
  have hnew : path ∉ w.scratch.files := hpath ▸ h.filePath_not_mem hids hplain hdirectory
  constructor
  case toAccounts =>
    rw [hscratch]
    exact h.toAccounts.handOut hanswer hnew hmade
  case lower => omega
  case numbers =>
    refine List.forall_mem_append.mpr ⟨fun m' hm' path' hpath' => ?_, ?_⟩
    · obtain ⟨d', n, stem', extension', hd', hlo, hn, hrest⟩ := h.numbers m' hm' path' hpath'
      obtain rfl := hdirectory d' hd'
      exact ⟨d', n, stem', extension', by rw [hscratch], hlo, by omega, hrest⟩
    · refine List.forall_mem_singleton.mpr fun path' hpath' => ?_
      obtain rfl := Option.some.inj (Except.ok.inj (hanswer.symm.trans hpath'))
      exact ⟨d, w.scratchIds + 1, stem, extension, by rw [hscratch], by omega, by omega, hevent,
        hplain, hpath⟩

/-- **Every event** that does not end the session keeps the invariant. -/
theorem concat (h : Tracks host lo moments w) (e : Event) (hends : ¬ e.Ends)
    (hplain : ∀ stem extension, e = .allocate stem extension → IsPlain extension)
    (hids : host.Identifies lo (e.moment host w).after.scratchIds) :
    Tracks host lo (moments ++ [e.moment host w]) (e.moment host w).after := by
  cases e with
  | allocate stem extension =>
      have hways := Build.allocates host stem extension w
      rw [moment_allocate] at hids ⊢
      generalize (Build.allocate host stem extension).run w = outcome at hids hways ⊢
      cases hways with
      | closed hclosed => exact nomatch h.isOpen.symm.trans hclosed
      -- the directory could not be made, and nothing else has changed
      | refused fault hopen hnone =>
          exact h.idle rfl rfl rfl fun _ => rfl
      | first l path hopen hnone hlocate hfree hpath =>
          exact h.handOut hids (hplain _ _ rfl) rfl rfl hpath rfl rfl
            (fun d hd => nomatch hnone.symm.trans hd)
            (.last (h.unmade hnone) ⟨rfl, l, hlocate, hfree, rfl⟩)
      | next d path hopen hd hpath =>
          refine h.handOut hids (hplain _ _ rfl) rfl rfl hpath ?_ rfl
            (fun d' hd' => Option.some.inj (hd'.symm.trans hd)) ((h.made d hd).concat fun _ => rfl)
          rw [← hd]
          rfl
  | enter => exact h.idle rfl rfl rfl fun _ => rfl
  | exit => exact absurd .exit hends
  | cleanUp => exact absurd .cleanUp hends
  | meanwhile files => exact h.idle rfl rfl rfl fun hown => absurd rfl (hown files)

/-- A session whose files are tracked goes on. -/
theorem ongoing (h : Tracks host lo moments w) (hids : host.Identifies lo w.scratchIds) :
    Ongoing moments w.scratch where
  toAccounts := h.toAccounts
  places := by
    intro m hm stem extension path hevent hanswer
    obtain ⟨d, n, stem', extension', hd, hlo, hn, hevent', hplain, rfl⟩ :=
      h.numbers m hm path hanswer
    obtain ⟨rfl, rfl⟩ := Event.allocate.inj (hevent.symm.trans hevent')
    exact ⟨d, hd, places_filePath hids hlo hn hplain⟩

end Tracks

/-- No event takes a number back. -/
theorem scratchIds_le_moment (host : Host) (e : Event) (w : World) :
    w.scratchIds ≤ (e.moment host w).after.scratchIds := by
  cases e with
  | allocate stem extension =>
      obtain ⟨files, directories, ids, scratch, hle, hrun⟩ :=
        (Build.allocate_frame host stem extension w).1
      rw [moment_allocate, hrun]
      exact hle
  | enter => exact Nat.le_refl _
  | meanwhile files => exact Nat.le_refl _
  | exit | cleanUp =>
      rw [moment_of_ends (by constructor), Build.run_cleanUp]
      exact Nat.le_refl _

/-- **A session that goes on** keeps the invariant all along. -/
theorem tracks_course (hnew : w.scratch.IsNew) (hends : ∀ e ∈ events, ¬ e.Ends)
    (hplain : ∀ stem extension, .allocate stem extension ∈ events → IsPlain extension)
    (hids : host.Identifies w.scratchIds (w.behind (course host events w)).scratchIds) :
    Tracks host w.scratchIds (course host events w) (w.behind (course host events w)) := by
  induction events using List.reverseRecOn with
  | nil => exact .nil hnew
  | append_singleton events e ih =>
      have hcourse : course host (events ++ [e]) w = course host events w
          ++ [e.moment host (w.behind (course host events w))] := course_append _ _ _
      rw [hcourse, behind_concat] at hids ⊢
      have hsofar := ih (fun e he => hends e (List.mem_append_left _ he))
        (fun stem extension he => hplain stem extension (List.mem_append_left _ he))
        (hids.mono (scratchIds_le_moment host e _))
      refine hsofar.concat e (hends e (List.mem_append_right _ List.mem_cons_self)) ?_ hids
      rintro stem extension rfl
      exact hplain stem extension (List.mem_append_right _ List.mem_cons_self)

/-- The session is over with the moment, and nothing comes of the later ones. -/
structure Over (m : Moment) (later : List Moment) : Prop where
  isOver : m.after.scratch.IsOver
  vain : ∀ m' ∈ later, m'.IsVain

/-- **A session keeps account** of what it has handed out, whatever is asked of it and
    whatever becomes of the files: as long as nothing ends it, it knows just what it
    has made and handed out; a request that it refuses changes nothing; and once it is
    cleaned up, it is over, even if the cleaning was stopped. -/
theorem session_keeps_account (host : Host) (events : List Event) (w : World)
    (hnew : w.scratch.IsNew)
    (hplain : ∀ stem extension, .allocate stem extension ∈ events → IsPlain extension)
    (hids : host.Identifies w.scratchIds (w.behind (course host events w)).scratchIds) :
    ((∀ e ∈ events, ¬ e.Ends) →
      Ongoing (course host events w) (w.behind (course host events w)).scratch) ∧
    (∀ m ∈ course host events w, ∀ stem extension e, m.event = .allocate stem extension →
      m.answer = .error e → m.after.scratch = m.before.scratch ∧ m.after.files = m.before.files) ∧
    ∀ earlier m later, course host events w = earlier ++ m :: later → m.event.Ends →
      Over m later := by
  refine ⟨fun hends => ?_, fun m hm stem extension e hevent hanswer => ?_,
    fun earlier m later hsplit hends => ?_⟩
  · exact (tracks_course hnew hends hplain hids).ongoing hids
  · have hmoment := moment_of_mem hm
    rw [hevent, moment_allocate] at hmoment
    rw [hmoment] at hanswer ⊢
    rcases hrun : (Build.allocate host stem extension).run m.before with ⟨e' | path, v⟩
    · exact Build.allocate_error hrun
    · rw [hrun] at hanswer
      exact nomatch hanswer
  · obtain ⟨hmoment, rest, rfl⟩ := course_split hsplit
    have hover : m.after.scratch.IsOver := hmoment ▸ isOver_of_ends hends host m.before
    exact ⟨hover, isVain_of_mem_course hover⟩

/-- Tools that do nothing, with numerals as identifiers. -/
def restingHost : Host where
  tools _ _ files := (.exited 0 "", files)

/-- A place for scratch directories. -/
def sessionWorld : World where
  files := ⟨["w"], [(["w"], .directory), (["w", "tmp"], .directory)]⟩

/-- Requests for files whose names look alike. -/
def askingEvents : List Event :=
  [.enter, .allocate "../x" "", .meanwhile ⟨["w"], []⟩, .allocate "" "0.o",
    .allocate "x-000000000003" "0"]

theorem session_keeps_account_asking :
    sessionWorld.scratch.IsNew ∧
      (∀ stem extension, .allocate stem extension ∈ askingEvents → IsPlain extension) ∧
      restingHost.Identifies 0
        (sessionWorld.behind (course restingHost askingEvents sessionWorld)).scratchIds ∧
      Ongoing (course restingHost askingEvents sessionWorld)
        (sessionWorld.behind (course restingHost askingEvents sessionWorld)).scratch ∧
      ∀ m later, course restingHost [.exit, .allocate "late" ".o"]
        (sessionWorld.behind (course restingHost askingEvents sessionWorld)) = m :: later →
        Over m later := by
  have hplain : ∀ stem extension,
      .allocate stem extension ∈ askingEvents ++ [.exit, .allocate "late" ".o"] →
        IsPlain extension := by
    intro stem extension hin
    simp only [askingEvents, List.cons_append, List.nil_append, List.mem_cons, List.not_mem_nil,
      or_false, reduceCtorEq, false_or, Event.allocate.injEq] at hin
    rcases hin with ⟨-, rfl⟩ | ⟨-, rfl⟩ | ⟨-, rfl⟩ | ⟨-, rfl⟩ <;> exact ⟨by decide, by decide⟩
  have hids : restingHost.Identifies 0 3 := by
    have hlength : ∀ n ≤ 3, (Text.hex 12 n).toList.length = 12 := by decide
    refine ⟨fun n _ hn => hlength n hn, fun n _ _ => Text.mem_lowerHexDigits_of_mem_hex 12 n, ?_⟩
    intro m n _ hlt _ hsame
    exact hlt.ne (Text.upperCase_hex_injective 12 (congrArg Text.upperCase hsame))
  have hasked : (sessionWorld.behind (course restingHost askingEvents sessionWorld)).scratchIds
      = 3 := by decide +kernel
  have hlate : (sessionWorld.behind (course restingHost
      (askingEvents ++ [.exit, .allocate "late" ".o"]) sessionWorld)).scratchIds = 3 := by
    decide +kernel
  have hplain' := fun stem extension hin => hplain stem extension (List.mem_append_left _ hin)
  have hnew : sessionWorld.scratch.IsNew := ⟨rfl, rfl, rfl⟩
  have hends : ∀ e ∈ askingEvents, ¬ e.Ends := by
    intro e he hend
    cases hend <;> simp [askingEvents] at he
  refine ⟨hnew, hplain', by rw [hasked]; exact hids, ?_, fun m later hsplit => ?_⟩
  · exact (session_keeps_account restingHost askingEvents sessionWorld hnew hplain'
      (by rw [hasked]; exact hids)).1 hends
  · refine (session_keeps_account restingHost _ sessionWorld hnew hplain
      (by rw [hlate]; exact hids)).2.2 (course restingHost askingEvents sessionWorld) m later ?_ ?_
    · rw [course_append, hsplit]
    · rw [← (List.cons.inj hsplit).1]
      exact .exit

/-- A stem cannot lead out of the directory, nor make two names the same. -/
example : handedOut (course restingHost askingEvents sessionWorld) =
    ["tmp/aotc-00000001/.._x-000000000001", "tmp/aotc-00000001/scratch-0000000000020.o",
      "tmp/aotc-00000001/x-000000000003-0000000000030"].map Path.ofString := by
  decide +kernel

end Scratch

end AheadOfTime
