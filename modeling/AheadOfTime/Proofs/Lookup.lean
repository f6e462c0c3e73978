import AheadOfTime.Proofs.Contract
import Mathlib.Data.List.Basic

/-! # Which programs tools are looked up to

    A tool whose name has a slash is the file of that path, and any other one is the
    entry of its name in the first directory that holds a program there: `Resolves`
    says so of one name, and `Toolchain.Locates` of the six tools, with the first one
    that is missing.

    The directories are written one behind the other, with colons between them, and
    then cut apart again.  `locateTools_finds` says what comes of that: the entries of
    the search path are what they were, while the runtime's own program directory is
    one of the directories exactly if there is no colon in its path. -/

namespace AheadOfTime

/-! ## Pieces of texts -/

namespace Text

/-- A piece between separators holds none. -/
theorem not_mem_of_mem_pieces {c : Char} {s piece : String} (h : piece ∈ pieces c s) :
    c ∉ piece.toList := by
  obtain ⟨chars, hchars, rfl⟩ := List.mem_map.mp h
  rw [String.toList_ofList]
  exact not_mem_of_mem_splitAt hchars

/-- A piece holds only characters of the text. -/
theorem subset_of_mem_pieces {c : Char} {s piece : String} (h : piece ∈ pieces c s) :
    piece.toList ⊆ s.toList := by
  obtain ⟨chars, hchars, rfl⟩ := List.mem_map.mp h
  rw [String.toList_ofList]
  exact subset_of_mem_splitAt hchars

/-- A text of one separator stands between the pieces before it and those behind. -/
theorem pieces_append {c : Char} {separator : String} (h : separator.toList = [c])
    (s s' : String) : pieces c (s ++ separator ++ s') = pieces c s ++ pieces c s' := by
  unfold pieces
  rw [String.toList_append, String.toList_append, h, List.append_assoc, List.singleton_append,
    splitAt_append, List.map_append]

end Text

/-! ## Paths and their texts -/

/-- What goes on without a slash, or behind something else than one, has the same
    anchor. -/
theorem Anchor.ofChars_append {l m : List Char} (hl : l ≠ [])
    (h : m.head? = some '/' → l.getLast? ≠ some '/') : ofChars (l ++ m) = ofChars l := by
  have hhead : ∀ {c : Char} (rest : List Char), c ≠ '/' → (c :: rest).head? ≠ some '/' :=
    fun _ hc heq => hc (Option.some.inj heq)
  obtain ⟨a, l, rfl⟩ := List.exists_cons_of_ne_nil hl
  rw [List.cons_append]
  by_cases ha : a = '/'
  · subst ha
    rcases l with _ | ⟨b, l⟩
    · have hm : m.head? ≠ some '/' := fun hm => h hm rfl
      exact ofChars_root hm
    · rw [List.cons_append]
      by_cases hb : b = '/'
      · subst hb
        rcases l with _ | ⟨c, l⟩
        · have hm : m.head? ≠ some '/' := fun hm => h hm rfl
          exact ofChars_doubleRoot hm
        · rw [List.cons_append]
          by_cases hc : c = '/'
          · subst hc
            rfl
          · rw [ofChars_doubleRoot (hhead _ hc), ofChars_doubleRoot (hhead _ hc)]
      · rw [ofChars_root (hhead _ hb), ofChars_root (hhead _ hb)]
  · rw [ofChars_relative (hhead _ ha), ofChars_relative (hhead _ ha)]

namespace Path

/-- The path can have been read from a text: its names are names, and hold no slash. -/
def IsRead (p : Path) : Prop := ∀ name ∈ p.parts, isName name = true ∧ '/' ∉ name.toList

/-- A path that is read from a text is one that was read. -/
theorem isRead_ofString (text : String) : (ofString text).IsRead := by
  intro name hname
  obtain ⟨hpiece, hproper⟩ := List.mem_filter.mp hname
  exact ⟨hproper, Text.not_mem_of_mem_pieces hpiece⟩

/-- So is what it leads to behind it. -/
theorem IsRead.child {p : Path} (h : p.IsRead) (text : String) : (p.child text).IsRead := by
  have htext := isRead_ofString text
  unfold Path.child join
  split
  · exact List.forall_mem_append.mpr ⟨h, htext⟩
  · exact htext

theorem isName_iff {name : String} : isName name = true ↔ ¬ (name = "" ∨ name = ".") := by
  unfold isName
  rw [Bool.and_eq_true, bne_iff_ne, bne_iff_ne, not_or]

/-- **A path that has been read** is read again from its text. -/
theorem ofString_toString {p : Path} (h : p.IsRead) : ofString p.toString = p := by
  by_cases hdot : p.anchor = .relative ∧ p.parts = []
  · obtain ⟨anchor, parts⟩ := p
    obtain ⟨rfl, rfl⟩ := hdot
    decide
  · have hwritten : p.IsWritten := fun name hname =>
      ⟨(not_or.mp (isName_iff.mp (h name hname).1)).1, (h name hname).2⟩
    have hspelled := spelled_toString hwritten hdot
    have hparts : (ofString p.toString).parts = (spelled p.toString).parts.filter isName := by
      show (Text.pieces '/' p.toString).filter isName = _
      unfold spelled
      rw [List.filter_filter]
      refine List.filter_congr fun name _ => ?_
      rcases hname : isName name with _ | _
      · rfl
      · rw [Bool.true_and, decide_eq_true (not_or.mp (isName_iff.mp hname)).1]
    rw [hspelled, List.filter_eq_self.mpr fun name hname => (h name hname).1] at hparts
    have hanchor : Anchor.ofChars p.toString.toList = p.anchor := congrArg Path.anchor hspelled
    calc
      ofString p.toString = ⟨Anchor.ofChars p.toString.toList, (ofString p.toString).parts⟩ := rfl
      _ = p := by rw [hanchor, hparts]

/-- Every character of a path's text separates names or stands in one. -/
theorem mem_toString {p : Path} {c : Char} (h : c ∈ p.toString.toList) :
    c = '/' ∨ c = '.' ∨ ∃ name ∈ p.parts, c ∈ name.toList := by
  -- the names have slashes between them, and the text of an anchor is slashes
  have hbetween : ∀ names : List String, c ∈ (String.intercalate "/" names).toList →
      c = '/' ∨ ∃ name ∈ names, c ∈ name.toList := by
    intro names
    induction names with
    | nil => exact fun hin => nomatch hin
    | cons name later ih =>
        intro hin
        rcases later with _ | ⟨next, later⟩
        · rw [String.intercalate_singleton] at hin
          exact .inr ⟨name, List.mem_cons_self, hin⟩
        · rw [String.intercalate_cons_cons, String.toList_append, String.toList_append,
            List.mem_append, List.mem_append] at hin
          rcases hin with (hin | hin) | hin
          · exact .inr ⟨name, List.mem_cons_self, hin⟩
          · exact .inl (List.mem_singleton.mp hin)
          · rcases ih hin with hslash | ⟨name', hname', hc⟩
            · exact .inl hslash
            · exact .inr ⟨name', List.mem_cons_of_mem _ hname', hc⟩
  unfold toString at h
  split at h
  · exact .inr (.inl (List.mem_singleton.mp h))
  · rw [String.toList_append, List.mem_append] at h
    rcases h with hanchor | hnames
    · left
      cases hp : p.anchor with
      | relative =>
          rw [hp] at hanchor
          exact nomatch hanchor
      | root =>
          rw [hp] at hanchor
          exact List.mem_singleton.mp hanchor
      | doubleRoot =>
          rw [hp] at hanchor
          rcases List.mem_cons.mp hanchor with rfl | hin
          · rfl
          · exact List.mem_singleton.mp hin
    · exact (hbetween p.parts hnames).imp_right .inr

end Path

/-! ## Single programs -/

namespace FileTree

variable {t : FileTree} {p : Path} {name : String} {directories : List Path}

/-- A regular file that may be executed stands where the path leads. -/
def IsProgramAt (t : FileTree) (p : Path) : Prop :=
  holdsNul p = false ∧ ∃ bytes, t.status p = .ok (.file bytes true)

/-- The system cannot even look where the path leads, as it or a name in it is too
    long. -/
def Refuses (t : FileTree) (p : Path) : Prop :=
  holdsNul p = false ∧ t.status p = .error .nameTooLong

/-- Where the system refuses to look, there is no program. -/
theorem not_isProgramAt_of_refuses (h : t.Refuses p) : ¬ t.IsProgramAt p := by
  rintro ⟨-, bytes, hstatus⟩
  exact nomatch h.2.symm.trans hstatus

/-- A look at a path is refused, or it tells whether there is a program. -/
theorem lookAt_cases (t : FileTree) (p : Path) :
    (t.Refuses p ∧ t.lookAt p = .error (.refused .nameTooLong p.toString)) ∨
      (¬ t.Refuses p ∧ ∃ found, t.lookAt p = .ok found ∧
        (found.any isProgram = true ↔ t.IsProgramAt p)) := by
  unfold lookAt
  rcases hnul : holdsNul p with _ | _
  · rw [if_neg (by decide)]
    rcases hstatus : t.status p with reason | e
    · have hnone : ¬ t.IsProgramAt p := fun ⟨_, _, hprogram⟩ => nomatch hstatus.symm.trans hprogram
      -- of the reasons that a path leads nowhere, only the one for long names is an error
      cases reason with
      | nameTooLong => exact .inl ⟨⟨hnul, hstatus⟩, rfl⟩
      | _ =>
          refine .inr ⟨fun hrefuses => (nomatch hstatus.symm.trans hrefuses.2), none, rfl, ?_⟩
          exact iff_of_false nofun hnone
    · refine .inr ⟨fun hrefuses => (nomatch hstatus.symm.trans hrefuses.2), some e, rfl, ?_⟩
      constructor
      · intro hprogram
        rcases e with _ | ⟨bytes, _ | _⟩ | target
        · exact nomatch hprogram
        · exact nomatch hprogram
        · exact ⟨hnul, bytes, hstatus⟩
        · exact nomatch hprogram
      · rintro ⟨-, bytes, hprogram⟩
        rw [Except.ok.inj (hstatus.symm.trans hprogram)]
        rfl
  · refine .inr ⟨fun hrefuses => (nomatch hnul.symm.trans hrefuses.1), none, if_pos rfl, ?_⟩
    exact iff_of_false nofun fun hprogram => nomatch hnul.symm.trans hprogram.1

/-- Where the system refuses to look, it says that a name is too long. -/
theorem isProgram?_of_refuses (h : t.Refuses p) :
    t.isProgram? p = .error (.refused .nameTooLong p.toString) := by
  rcases t.lookAt_cases p with ⟨-, hlook⟩ | ⟨hnot, -⟩
  · unfold isProgram?
    rw [hlook]
    rfl
  · exact absurd h hnot

/-- Elsewhere it says whether there is a program. -/
theorem isProgram?_of_not_refuses (h : ¬ t.Refuses p) :
    ∃ found, t.isProgram? p = .ok found ∧ (found = true ↔ t.IsProgramAt p) := by
  rcases t.lookAt_cases p with ⟨hrefuses, -⟩ | ⟨-, found, hlook, hiff⟩
  · exact absurd hrefuses h
  · refine ⟨found.any isProgram, ?_, hiff⟩
    unfold isProgram?
    rw [hlook]
    rfl

/-- On a search, a look that is refused finds nothing. -/
theorem holdsProgram_iff : t.holdsProgram p = true ↔ t.IsProgramAt p := by
  unfold holdsProgram
  rcases t.lookAt_cases p with ⟨hrefuses, hlook⟩ | ⟨-, found, hlook, hiff⟩
  · rw [hlook]
    exact iff_of_false nofun (not_isProgramAt_of_refuses hrefuses)
  · rw [hlook, ← hiff]
    rcases found with _ | e <;> rfl

/-- Where a name is looked up in a directory: at what it names there. -/
theorem searchEntry_eq (directory : String) (hslash : '/' ∉ name.toList)
    (hname : Path.isName name = true) :
    searchEntry directory name = (Path.ofString directory).child name := by
  have hhead : name.toList.head? ≠ some '/' := fun hin => hslash (List.mem_of_head? hin)
  rw [Path.child_of_name _ hslash (Path.isName_iff.mp hname)]
  unfold searchEntry
  by_cases hempty : directory = ""
  · rw [if_pos (.inl hempty), hempty, String.empty_append]
    unfold Path.ofString
    rw [Anchor.ofChars_relative hhead, Text.pieces_of_not_mem hslash,
      List.filter_cons_of_pos hname]
    rfl
  · have hlist : directory.toList ≠ [] := fun hnil => hempty (String.toList_eq_nil_iff.mp hnil)
    by_cases hend : directory.toList.getLast? = some '/'
    · -- the slash is there, and the piece behind it is empty
      obtain ⟨chars, hchars⟩ := List.getLast?_eq_some_iff.mp hend
      have hdirectory : directory = String.ofList chars ++ "/" ++ "" := by
        rw [← String.toList_inj, String.append_empty, String.toList_append, String.toList_ofList,
          hchars]
        rfl
      have hpieces : (Text.pieces '/' directory).filter Path.isName
          = (Text.pieces '/' (String.ofList chars)).filter Path.isName := by
        rw [hdirectory, Text.pieces_append rfl, List.filter_append]
        exact List.append_nil _
      rw [if_pos (.inr hend)]
      unfold Path.ofString
      rw [hpieces, String.toList_append, Anchor.ofChars_append hlist fun hin => absurd hin hhead]
      congr
      rw [hdirectory, String.append_empty, Text.pieces_append rfl, List.filter_append,
        Text.pieces_of_not_mem hslash, List.filter_cons_of_pos hname, List.filter_nil]
    · rw [if_neg (not_or.mpr ⟨hempty, hend⟩)]
      unfold Path.ofString
      rw [String.append_assoc, String.toList_append, Anchor.ofChars_append hlist fun _ => hend,
        ← String.append_assoc, Text.pieces_append rfl, List.filter_append,
        Text.pieces_of_not_mem hslash, List.filter_cons_of_pos hname, List.filter_nil]

/-- The program that a name stands for. -/
inductive Resolves (t : FileTree) (directories : List Path) (name : String) : Path → Prop
  /-- A name with a slash is a path. -/
  | itself : '/' ∈ name.toList → t.IsProgramAt (.ofString name) →
      Resolves t directories name (.ofString name)
  /-- Any other name is looked up in one directory after the other. -/
  | found {before after : List Path} {d : Path} : '/' ∉ name.toList → Path.isName name = true →
      directories = before ++ d :: after → t.IsProgramAt (d.child name) →
      (∀ d' ∈ before, ¬ t.IsProgramAt (d'.child name)) →
      Resolves t directories name (d.child name)

/-- A search finds what the name stands for. -/
theorem searchProgram_eq_some_iff {texts : List String} (hslash : '/' ∉ name.toList) :
    t.searchProgram texts name = some p ↔ t.Resolves (texts.map .ofString) name p := by
  unfold searchProgram
  rcases hname : Path.isName name with _ | _
  · rw [if_pos (by decide)]
    refine iff_of_false nofun fun hresolves => ?_
    cases hresolves with
    | itself hin _ => exact hslash hin
    | found _ hname' _ _ _ => exact nomatch hname.symm.trans hname'
  · have hentries : texts.map (searchEntry · name)
        = (texts.map Path.ofString).map (·.child name) := by
      rw [List.map_map]
      exact List.map_congr_left fun text _ => searchEntry_eq text hslash hname
    rw [if_neg nofun, hentries, List.find?_map, Option.map_eq_some_iff]
    -- the first directory that holds the program is the one with none of them before it
    constructor
    · rintro ⟨d, hd, rfl⟩
      obtain ⟨hprogram, before, after, hsplit, hbefore⟩ := List.find?_eq_some_iff_append.mp hd
      refine .found hslash hname hsplit (holdsProgram_iff.mp hprogram) fun d' hd' hprogram' => ?_
      have hnot := hbefore d' hd'
      rw [Function.comp, holdsProgram_iff.mpr hprogram'] at hnot
      exact nomatch hnot
    · intro hresolves
      cases hresolves with
      | itself hin _ => exact absurd hin hslash
      | @found before after d _ _ hsplit hprogram hbefore =>
          refine ⟨d, List.find?_eq_some_iff_append.mpr
            ⟨holdsProgram_iff.mpr hprogram, before, after, hsplit, fun d' hd' => ?_⟩, rfl⟩
          rw [Bool.not_eq_true', ← Bool.not_eq_true]
          exact fun hprogram' => hbefore d' hd' (holdsProgram_iff.mp hprogram')

end FileTree

/-! ## The six tools -/

/-- The program for a role. -/
def ToolPaths.tool (tools : ToolPaths) : ToolRole → Path
  | .frontend => tools.frontend
  | .backend => tools.backend
  | .cc => tools.cc
  | .lipo => tools.lipo
  | .nm => tools.nm
  | .strip => tools.strip

/-- Tools are told apart by what they do. -/
theorem ToolPaths.ext_tool {tools tools' : ToolPaths}
    (h : ∀ role, tools.tool role = tools'.tool role) :
    tools = tools' := by
  obtain ⟨_, _, _, _, _, _⟩ := tools
  obtain ⟨_, _, _, _, _, _⟩ := tools'
  exact ToolPaths.mk.injEq .. ▸ ⟨h .frontend, h .backend, h .cc, h .lipo, h .nm, h .strip⟩

namespace Toolchain

variable {t : Toolchain} {files : FileTree} {searchPath : String} {role : ToolRole}

/-- The entries of a search path; an empty search path has none. -/
def searchEntries (searchPath : String) : List String :=
  if searchPath = "" then [] else Text.pieces ':' searchPath

/-- The directories in which tools are looked up, in this order. -/
def directories (t : Toolchain) (searchPath : String) : List Path :=
  (t.searchDirectories searchPath).map .ofString

/-- What the tool of the role is looked up to. -/
def Finds (t : Toolchain) (files : FileTree) (searchPath : String) (role : ToolRole) (p : Path) :
    Prop :=
  files.Resolves (t.directories searchPath) (t.toolName role) p

/-- The failure for a tool that is missing: that it was not found, unless the look at a
    path that its name is was refused. -/
inductive Lacks (t : Toolchain) (files : FileTree) (role : ToolRole) : Failure → Prop
  | notFound : ¬ ('/' ∈ (t.toolName role).toList ∧ files.Refuses (.ofString (t.toolName role))) →
      Lacks t files role (.problem (.toolNotFound role (t.toolName role)))
  | refused : '/' ∈ (t.toolName role).toList → files.Refuses (.ofString (t.toolName role)) →
      Lacks t files role
        (.fault (.refused .nameTooLong (Path.ofString (t.toolName role)).toString))

/-- **A tool is found**, or it is nowhere. -/
theorem requireTool_cases (t : Toolchain) (files : FileTree) (searchPath : String)
    (role : ToolRole) :
    (∃ p, t.Finds files searchPath role p ∧
        t.requireTool files searchPath role = .ok (files.absolute p)) ∨
      ((¬ ∃ p, t.Finds files searchPath role p) ∧
        ∃ e, t.Lacks files role e ∧ t.requireTool files searchPath role = .error e) := by
  unfold requireTool locateTool
  dsimp only
  by_cases hslash : '/' ∈ (t.toolName role).toList
  · -- a name with a slash in it stands for itself, and for nothing else
    have hcontains : (t.toolName role).toList.contains '/' = true :=
      List.contains_iff_mem.mpr hslash
    have honly : ∀ p, t.Finds files searchPath role p →
        files.IsProgramAt (.ofString (t.toolName role)) := by
      intro p hp
      cases hp with
      | itself _ hprogram => exact hprogram
      | found hplain _ _ _ _ => exact absurd hslash hplain
    rw [if_pos hcontains]
    by_cases hrefuses : files.Refuses (.ofString (t.toolName role))
    · rw [FileTree.isProgram?_of_refuses hrefuses]
      refine .inr ⟨fun ⟨p, hp⟩ => ?_, _, .refused hslash hrefuses, rfl⟩
      exact FileTree.not_isProgramAt_of_refuses hrefuses (honly p hp)
    · obtain ⟨found, hfound, hiff⟩ := FileTree.isProgram?_of_not_refuses hrefuses
      rw [hfound]
      cases found with
      | true => exact .inl ⟨_, .itself hslash (hiff.mp rfl), rfl⟩
      | false =>
          refine .inr ⟨fun ⟨p, hp⟩ => ?_, _, .notFound fun hand => hrefuses hand.2, rfl⟩
          exact nomatch hiff.mpr (honly p hp)
  · -- any other name is searched for
    have hcontains : ¬ (t.toolName role).toList.contains '/' = true := fun hin =>
      hslash (List.contains_iff_mem.mp hin)
    rw [if_neg hcontains]
    rcases hsearch : files.searchProgram (t.searchDirectories searchPath) (t.toolName role)
      with _ | p
    · refine .inr ⟨fun ⟨p, hp⟩ => ?_, _, .notFound fun hand => hslash hand.1, rfl⟩
      exact nomatch hsearch.symm.trans ((FileTree.searchProgram_eq_some_iff hslash).mpr hp)
    · exact .inl ⟨p, (FileTree.searchProgram_eq_some_iff hslash).mp hsearch, rfl⟩

/-- All of these roles have their tools in the end, or the first one without has failed
    for all. -/
def Comes (t : Toolchain) (files : FileTree) (searchPath : String) (roles : List ToolRole)
    (outcome : Except Failure ToolPaths) : Prop :=
  (∃ tools, outcome = .ok tools ∧
    ∀ role, t.requireTool files searchPath role = .ok (tools.tool role)) ∨
  ∃ before role after e, roles = before ++ role :: after ∧
    (∀ r ∈ before, ∃ p, t.requireTool files searchPath r = .ok p) ∧
    t.requireTool files searchPath role = .error e ∧ outcome = .error e

/-- One tool after the other. -/
theorem Comes.bind {roles : List ToolRole} {f : Path → Except Failure ToolPaths}
    (h : ∀ p, t.requireTool files searchPath role = .ok p →
      t.Comes files searchPath roles (f p)) :
    t.Comes files searchPath (role :: roles) (t.requireTool files searchPath role >>= f) := by
  rcases hrole : t.requireTool files searchPath role with e | p
  · exact .inr ⟨[], role, roles, e, rfl, List.forall_mem_nil _, hrole, rfl⟩
  · refine (h p hrole).imp_right ?_
    rintro ⟨before, role', after, e, rfl, hbefore, hrest⟩
    exact ⟨role :: before, role', after, e, rfl, List.forall_mem_cons.mpr ⟨⟨p, hrole⟩, hbefore⟩,
      hrest⟩

/-- **The search for the tools** comes to what it should. -/
theorem comes_locateTools (t : Toolchain) (files : FileTree) (searchPath : String) :
    t.Comes files searchPath ToolRole.all (t.locateTools files searchPath) := by
  refine .bind fun frontend hfrontend => .bind fun backend hbackend => .bind fun cc hcc =>
    .bind fun lipo hlipo => .bind fun nm hnm => .bind fun strip hstrip => .inl ⟨_, rfl, ?_⟩
  intro role
  cases role with
  | frontend => exact hfrontend
  | backend => exact hbackend
  | cc => exact hcc
  | lipo => exact hlipo
  | nm => exact hnm
  | strip => exact hstrip

/-- The role is the first one, in the order of the lookups, whose tool is missing. -/
def Misses (t : Toolchain) (files : FileTree) (searchPath : String) (role : ToolRole) : Prop :=
  ∃ before after, ToolRole.all = before ++ role :: after ∧
    (∀ r ∈ before, ∃ p, t.Finds files searchPath r p) ∧
    ¬ ∃ p, t.Finds files searchPath role p

/-- How a lookup of the six tools comes out. -/
inductive Locates (t : Toolchain) (files : FileTree) (searchPath : String) :
    Except Failure ToolPaths → Prop
  | all (tools : ToolPaths) :
      (∀ role, ∃ p, t.Finds files searchPath role p ∧ tools.tool role = files.absolute p) →
      Locates t files searchPath (.ok tools)
  | missing (role : ToolRole) (e : Failure) : t.Misses files searchPath role →
      t.Lacks files role e → Locates t files searchPath (.error e)

/-- The first tool that is missing is only one. -/
theorem misses_unique {role' : ToolRole} (h : t.Misses files searchPath role)
    (h' : t.Misses files searchPath role') : role = role' := by
  classical
  have hfirst : ∀ r, t.Misses files searchPath r →
      ToolRole.all.find? (fun r => ¬ ∃ p, t.Finds files searchPath r p) = some r := by
    rintro r ⟨before, after, hsplit, hbefore, hmissing⟩
    refine List.find?_eq_some_iff_append.mpr
      ⟨decide_eq_true hmissing, before, after, hsplit, fun r' hr' => ?_⟩
    rw [Bool.not_eq_true', decide_eq_false_iff_not]
    exact not_not_intro (hbefore r' hr')
  exact Option.some.inj ((hfirst role h).symm.trans (hfirst role' h'))

/-- The search for the tools locates them, or says which one is missing. -/
theorem locateTools_locates (t : Toolchain) (files : FileTree) (searchPath : String) :
    t.Locates files searchPath (t.locateTools files searchPath) := by
  have hfound : ∀ {r q}, t.requireTool files searchPath r = .ok q →
      ∃ p, t.Finds files searchPath r p ∧ q = files.absolute p := by
    intro r q hr
    rcases t.requireTool_cases files searchPath r with ⟨p, hp, hok⟩ | ⟨-, e, -, herror⟩
    · exact ⟨p, hp, Except.ok.inj (hr.symm.trans hok)⟩
    · exact nomatch hr.symm.trans herror
  rcases t.comes_locateTools files searchPath with ⟨tools, hok, hall⟩ |
    ⟨before, role, after, e, hsplit, hbefore, hrole, herror⟩
  · rw [hok]
    exact .all tools fun role => hfound (hall role)
  · rw [herror]
    rcases t.requireTool_cases files searchPath role with ⟨p, -, hok⟩ | ⟨hmissing, e', hlacks, he⟩
    · exact nomatch hrole.symm.trans hok
    · rw [Except.error.inj (hrole.symm.trans he)]
      refine .missing role e' ⟨before, after, hsplit, fun r hr => ?_, hmissing⟩ hlacks
      obtain ⟨q, hq⟩ := hbefore r hr
      obtain ⟨p, hp, -⟩ := hfound hq
      exact ⟨p, hp⟩

/-! ## The directories -/

/-- The directories of a search are the pieces of the tools' own directory, and then
    those of the path. -/
theorem directories_eq (t : Toolchain) (searchPath : String) : t.directories searchPath
    = (Text.pieces ':' t.binDir.toString ++ searchEntries searchPath).map .ofString := by
  unfold directories searchDirectories searchEntries
  by_cases hempty : searchPath = ""
  · rw [if_pos hempty, if_pos hempty, List.append_nil]
  · rw [if_neg hempty, if_neg hempty, Text.pieces_append rfl]

/-- No directory has a colon in its path. -/
theorem colon_not_mem_of_mem_directories {d : Path} (h : d ∈ t.directories searchPath) :
    ':' ∉ d.toString.toList := by
  obtain ⟨text, htext, rfl⟩ := List.mem_map.mp h
  intro hcolon
  rcases Path.mem_toString hcolon with hslash | hdot | ⟨name, hname, hin⟩
  · exact absurd hslash (by decide)
  · exact absurd hdot (by decide)
  · have hpiece := (List.mem_filter.mp hname).1
    exact Text.not_mem_of_mem_pieces htext (Text.subset_of_mem_pieces hpiece hin)

/-- The program directory keeps its place in front exactly if it has no colon. -/
theorem directories_eq_cons_iff (h : t.runtimeRoot.IsRead) :
    t.directories searchPath = t.binDir :: (searchEntries searchPath).map .ofString ↔
      ':' ∉ t.binDir.toString.toList := by
  constructor
  · intro hfirst
    have hin : t.binDir ∈ t.directories searchPath := by
      rw [hfirst]
      exact List.mem_cons_self
    exact colon_not_mem_of_mem_directories hin
  · intro hcolon
    have hread : Path.ofString t.binDir.toString = t.binDir :=
      Path.ofString_toString (h.child "bin")
    rw [directories_eq, Text.pieces_of_not_mem hcolon, List.singleton_append, List.map_cons, hread]

/-- A tool is found at one place only. -/
theorem finds_unique {p p' : Path} (h : t.Finds files searchPath role p)
    (h' : t.Finds files searchPath role p') : p = p' := by
  by_cases hslash : '/' ∈ (t.toolName role).toList
  · have hitself : ∀ q, t.Finds files searchPath role q → q = .ofString (t.toolName role) := by
      intro q hq
      cases hq with
      | itself _ _ => rfl
      | found hplain _ _ _ _ => exact absurd hslash hplain
    exact (hitself p h).trans (hitself p' h').symm
  · have hsearch := (FileTree.searchProgram_eq_some_iff hslash).mpr h
    exact Option.some.inj (hsearch.symm.trans ((FileTree.searchProgram_eq_some_iff hslash).mpr h'))

/-- **A tool in the program directory** is what its name stands for exactly if the
    directory has no colon. -/
theorem finds_binDir_iff (h : t.runtimeRoot.IsRead) (hslash : '/' ∉ (t.toolName role).toList)
    (hname : Path.isName (t.toolName role) = true)
    (hprogram : files.IsProgramAt (t.binDir.child (t.toolName role))) :
    t.Finds files searchPath role (t.binDir.child (t.toolName role)) ↔
      ':' ∉ t.binDir.toString.toList := by
  constructor
  · intro hfinds
    have hplace : ∀ q, t.Finds files searchPath role q →
        ∃ d ∈ t.directories searchPath, q = d.child (t.toolName role) := by
      intro q hq
      cases hq with
      | itself hin _ => exact absurd hin hslash
      | @found before after d _ _ hsplit _ _ =>
          rw [hsplit]
          exact ⟨d, List.mem_append_right _ List.mem_cons_self, rfl⟩
    obtain ⟨d, hd, hsame⟩ := hplace _ hfinds
    -- entries of the same name lie in the same directory
    rw [Path.child_of_name _ hslash (Path.isName_iff.mp hname),
      Path.child_of_name _ hslash (Path.isName_iff.mp hname)] at hsame
    obtain ⟨hanchor, hparts⟩ := Path.mk.inj hsame
    have hdirectory : t.binDir = d := by
      rw [show t.binDir = ⟨t.binDir.anchor, t.binDir.parts⟩ from rfl, hanchor,
        List.append_cancel_right hparts]
    rw [hdirectory]
    exact colon_not_mem_of_mem_directories hd
  · intro hcolon
    exact .found hslash hname ((directories_eq_cons_iff h).mpr hcolon) hprogram
      (List.forall_mem_nil _)

/-- A tool is missing in one way only. -/
theorem lacks_unique {e e' : Failure} (h : t.Lacks files role e) (h' : t.Lacks files role e') :
    e = e' := by
  cases h with
  | notFound hnot =>
      cases h' with
      | notFound _ => rfl
      | refused hslash hrefuses => exact absurd ⟨hslash, hrefuses⟩ hnot
  | refused hslash hrefuses =>
      cases h' with
      | notFound hnot => exact absurd ⟨hslash, hrefuses⟩ hnot
      | refused _ _ => rfl

/-- **There is one outcome** that locates the tools. -/
theorem locates_unique {outcome outcome' : Except Failure ToolPaths}
    (h : t.Locates files searchPath outcome) (h' : t.Locates files searchPath outcome') :
    outcome = outcome' := by
  have hnever : ∀ {role}, t.Misses files searchPath role →
      ¬ ∀ role, ∃ p, t.Finds files searchPath role p := by
    rintro role ⟨-, -, -, -, hmissing⟩ hall
    exact hmissing (hall role)
  cases h with
  | all tools htools =>
      cases h' with
      | all tools' htools' =>
          refine congrArg Except.ok (ToolPaths.ext_tool fun role => ?_)
          obtain ⟨p, hp, hpath⟩ := htools role
          obtain ⟨p', hp', hpath'⟩ := htools' role
          rw [hpath, hpath', finds_unique hp hp']
      | missing role e hmisses _ =>
          exact absurd (fun role => (htools role).imp fun _ hand => hand.1) (hnever hmisses)
  | missing role e hmisses hlacks =>
      cases h' with
      | all tools htools =>
          exact absurd (fun role => (htools role).imp fun _ hand => hand.1) (hnever hmisses)
      | missing role' e' hmisses' hlacks' =>
          obtain rfl := misses_unique hmisses hmisses'
          rw [lacks_unique hlacks hlacks']

/-- **Tools are located** as `Locates` says: all six of them, or the first one that is
    missing fails for all.  They are looked up in the pieces that colons cut the path of
    the program directory into, and then along the search path; so the program
    directory comes first, and a tool in it is the one that is found, exactly if its
    path has no colon. -/
theorem locateTools_finds (t : Toolchain) (files : FileTree) (searchPath : String)
    (hroot : t.runtimeRoot.IsRead) :
    (∀ outcome, t.locateTools files searchPath = outcome ↔
      t.Locates files searchPath outcome) ∧
    t.directories searchPath
      = (Text.pieces ':' t.binDir.toString ++ searchEntries searchPath).map .ofString ∧
    (t.directories searchPath = t.binDir :: (searchEntries searchPath).map .ofString ↔
      ':' ∉ t.binDir.toString.toList) ∧
    ∀ role, '/' ∉ (t.toolName role).toList → Path.isName (t.toolName role) = true →
      files.IsProgramAt (t.binDir.child (t.toolName role)) →
      (t.Finds files searchPath role (t.binDir.child (t.toolName role)) ↔
        ':' ∉ t.binDir.toString.toList) := by
  refine ⟨fun outcome => ⟨?_, fun h => ?_⟩, t.directories_eq searchPath,
    directories_eq_cons_iff hroot, fun role => finds_binDir_iff hroot⟩
  · rintro rfl
    exact t.locateTools_locates files searchPath
  · exact locates_unique (t.locateTools_locates files searchPath) h

/-- A runtime with a colon in its path. -/
def colonToolchain : Toolchain where
  runtimeRoot := .ofString "rt:x/usr"

/-- The front end lies where it belongs, and in what the colon leaves of that; nothing
    else is there. -/
def colonTree : FileTree where
  workingDirectory := ["w"]
  entries := [(["w"], .directory), (["w", "rt:x"], .directory), (["w", "rt:x", "usr"], .directory),
    (["w", "rt:x", "usr", "bin"], .directory), (["w", "x"], .directory),
    (["w", "x", "usr"], .directory), (["w", "x", "usr", "bin"], .directory),
    (["w", "rt:x", "usr", "bin", "macruby"], .file [] true),
    (["w", "rt:x", "usr", "bin", "llc"], .file [] true),
    (["w", "x", "usr", "bin", "macruby"], .file [] true)]

theorem locateTools_finds_colon :
    colonToolchain.runtimeRoot.IsRead ∧
      colonTree.IsProgramAt (colonToolchain.binDir.child "macruby") ∧
      ¬ colonToolchain.Finds colonTree "" .frontend (colonToolchain.binDir.child "macruby") ∧
      colonTree.IsProgramAt (colonToolchain.binDir.child "llc") ∧
      colonToolchain.Locates colonTree "" (.error (.problem (.toolNotFound .backend "llc"))) := by
  have hroot : colonToolchain.runtimeRoot.IsRead := Path.isRead_ofString _
  obtain ⟨hlocates, -, -, hfinds⟩ := locateTools_finds colonToolchain colonTree "" hroot
  have hfrontend : colonTree.IsProgramAt (colonToolchain.binDir.child "macruby") :=
    FileTree.holdsProgram_iff.mp (by decide +kernel)
  refine ⟨hroot, hfrontend, fun hfound => ?_, FileTree.holdsProgram_iff.mp (by decide +kernel),
    (hlocates _).mp (eq_error_of_failure? (by decide +kernel))⟩
  exact (hfinds .frontend (by decide) (by decide) hfrontend).mp hfound (by decide)

end Toolchain

end AheadOfTime
