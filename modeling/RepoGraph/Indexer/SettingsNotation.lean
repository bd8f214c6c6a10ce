import RepoGraph.Indexer.SettingsIncludes

/-! Whether the projects of a settings file depend on the notation of its paths. -/

namespace RepoGraph.Indexer

open Lib Lib.Text

section Notation

def Reference.plain (r : Reference) : Reference := { r with leadingColon := false }

def Command.plain : Command → Command
  | .includes layout first more => .includes layout first.plain (more.map fun a => (a.1, a.2.1, a.2.2.plain))
  | .includeBuild layout build => .includeBuild layout build
  | .rename layout project name => .rename layout project.plain name
  | .relocate layout project dir asFile => .relocate layout project.plain dir asFile

def Statement.plain (st : Statement) : Statement := { st with command := st.command.plain }

/-- Two files that differ in nothing but leading colons. -/
def Renotated (file file' : List Statement) : Prop := file'.map Statement.plain = file.map Statement.plain

def GradleModule.project (m : GradleModule) : String := trimStart m.gradlePath ":"

def lastSet (pairs : List (String × String)) (p : ProjectPath) : Option String :=
  (pairs.reverse.find? fun e => e.1 = p.val).map Prod.snd

def withoutBuilds (file : List Statement) : List Statement := file.filter fun st => st.command.build?.isNone

/-- The same subprojects in either notation, with the names and directories set for them, and no other builds. -/
structure NotationIndependent (subprojects : List Statement → List GradleModule) (place : String → String)
    (file file' : List Statement) : Prop where
  same : subprojects file' = subprojects file
  renamed : ∀ r ∈ included file, ∀ name, lastSet (renames file) r.project = some name →
    (∃ m ∈ subprojects file, m.project = r.project.val) ∧
      ∀ m ∈ subprojects file, m.project = r.project.val → m.displayName = name
  relocated : ∀ r ∈ included file, ∀ dir, lastSet (relocations file) r.project = some dir →
    (∃ m ∈ subprojects file, m.project = r.project.val) ∧
      ∀ m ∈ subprojects file, m.project = r.project.val → m.projectRoot = place dir
  builds : subprojects file = subprojects (withoutBuilds file)

def admitted (file : List Statement) : List Reference := (included file).filter fun r => isProjectPath r.written

/-- The notations agree where paths are included; what is set for an included project has an include that is
admitted to be set for, a name one without a colon; and no other build passes for a project path. -/
structure NotationSafe (file file' : List Statement) : Prop where
  same : (admitted file').map Reference.written = (admitted file).map Reference.written
  renamed : ∀ r ∈ included file, ∀ name, lastSet (renames file) r.project = some name →
    (∃ r' ∈ admitted file, r'.project = r.project) ∧ ∀ r' ∈ admitted file, r'.project = r.project →
      r'.leadingColon = false ∨ name = directoryBasename (gradlePathToFilesystem r.project.val)
  relocated : ∀ r ∈ included file, ∀ dir, lastSet (relocations file) r.project = some dir →
    ∃ r' ∈ admitted file, r'.project = r.project
  builds : ∀ b ∈ builds file, isProjectPath b = false

end Notation

section Subprojects

variable {file file' : List Statement}

lemma renames_plain (file : List Statement) : renames (file.map Statement.plain) = renames file := by
  rw [renames, renames, List.filterMap_map]
  refine List.filterMap_congr fun st _ => ?_
  rw [Function.comp_apply, Statement.plain]
  cases st.command with
  | includes | includeBuild | rename | relocate => rfl

lemma relocations_plain (file : List Statement) : relocations (file.map Statement.plain) = relocations file := by
  rw [relocations, relocations, List.filterMap_map]
  refine List.filterMap_congr fun st _ => ?_
  rw [Function.comp_apply, Statement.plain]
  cases st.command with
  | includes | includeBuild | rename | relocate => rfl

lemma builds_plain (file : List Statement) : builds (file.map Statement.plain) = builds file := by
  rw [builds, builds, List.filterMap_map]
  refine List.filterMap_congr fun st _ => ?_
  rw [Function.comp_apply, Statement.plain]
  cases st.command with
  | includes | includeBuild | rename | relocate => rfl

def contributed (file : List Statement) : List String :=
  (file.flatMap (·.command.contributed)).filter isProjectPath

lemma builds_cons (st : Statement) (file : List Statement) :
    builds (st :: file) = st.command.build?.toList ++ builds file := by
  rw [builds, List.filterMap_cons]
  cases st.command.build? with
  | none => rfl
  | some b => rfl

lemma contributed_cons (st : Statement) (file : List Statement) :
    contributed (st :: file) =
      (st.command.included.filter fun r => isProjectPath r.written).map Reference.written ++
      st.command.build?.toList.filter isProjectPath ++ contributed file := by
  rw [contributed, List.flatMap_cons, List.filter_append, Command.contributed, List.filter_append, List.filter_map]
  rfl

lemma admitted_cons (st : Statement) (file : List Statement) :
    admitted (st :: file) = (st.command.included.filter fun r => isProjectPath r.written) ++ admitted file := by
  rw [admitted, included, List.flatMap_cons, List.filter_append]
  rfl

lemma length_contributed (file : List Statement) :
    (contributed file).length = (admitted file).length + ((builds file).filter isProjectPath).length := by
  induction file with
  | nil => rfl
  | cons st file ih =>
    rw [contributed_cons, admitted_cons, builds_cons, List.filter_append]
    simp only [List.length_append, List.length_map, ih]
    omega

lemma contributed_of_builds (h : ∀ b ∈ builds file, isProjectPath b = false) :
    contributed file = (admitted file).map Reference.written := by
  induction file with
  | nil => rfl
  | cons st file ih =>
    rw [builds_cons, List.forall_mem_append] at h
    have hnone : st.command.build?.toList.filter isProjectPath = [] := by
      rw [List.filter_eq_nil_iff]
      exact fun b hb => by simp [h.1 b hb]
    rw [contributed_cons, admitted_cons, hnone, List.append_nil, ih h.2, List.map_append]

lemma Command.of_build {c : Command} (h : ¬ c.build?.isNone = true) :
    c.included = [] ∧ c.rename? = none ∧ c.relocate? = none := by
  cases c with
  | includes | rename | relocate => exact absurd rfl h
  | includeBuild layout build => exact ⟨rfl, rfl, rfl⟩

lemma included_withoutBuilds (file : List Statement) : included (withoutBuilds file) = included file := by
  rw [included, included, withoutBuilds]
  induction file with
  | nil => rfl
  | cons st file ih =>
    rw [List.filter_cons, List.flatMap_cons]
    split
    · rw [List.flatMap_cons, ih]
    · rename_i hbuild
      rw [ih, (Command.of_build hbuild).1, List.nil_append]

lemma builds_withoutBuilds (file : List Statement) : builds (withoutBuilds file) = [] := by
  rw [builds, withoutBuilds, List.filterMap_eq_nil_iff]
  intro st hst
  simpa using (List.mem_filter.mp hst).2

lemma renames_withoutBuilds (file : List Statement) : renames (withoutBuilds file) = renames file := by
  rw [renames, renames, withoutBuilds, List.filterMap_filter]
  refine List.filterMap_congr fun st _ => ?_
  split
  · rfl
  · rename_i hbuild
    exact (Command.of_build hbuild).2.1.symm

lemma relocations_withoutBuilds (file : List Statement) : relocations (withoutBuilds file) = relocations file := by
  rw [relocations, relocations, withoutBuilds, List.filterMap_filter]
  refine List.filterMap_congr fun st _ => ?_
  split
  · rfl
  · rename_i hbuild
    exact (Command.of_build hbuild).2.2.symm

def rootedAt (settingsPath : String) : String → String :=
  match rsplitOnce settingsPath '/' with
  | none => id
  | some (settingsDir, _) => joinRoot settingsDir

def moduleAt (place : String → String) (settingsPath : String) (file : List Statement) (path : String) :
    GradleModule :=
  let m := gradleModule (IterMap.ofPairs (renames file)) (IterMap.ofPairs (relocations file)) settingsPath path
  { m with projectRoot := place m.projectRoot }

lemma subprojects_parse (settingsPath : String) (file : List Statement) :
    (parseSettingsGradle (settingsText file) settingsPath).subprojects =
      (contributed file).map (moduleAt id settingsPath file) := by
  rw [parseSettingsGradle, extractProjectDirs_settingsText, extractProjectRenames_settingsText,
    extractIncludePaths_settingsText]
  rfl

lemma subprojects_parseRooted (settingsPath : String) (file : List Statement) :
    (parseSettingsGradleRooted (settingsText file) settingsPath).subprojects =
      (contributed file).map (moduleAt (rootedAt settingsPath) settingsPath file) := by
  have hparse := subprojects_parse settingsPath file
  rw [parseSettingsGradleRooted, rootedAt]
  cases rsplitOnce settingsPath '/' with
  | none => exact hparse
  | some split =>
    dsimp only
    rw [hparse, List.map_map]
    rfl

end Subprojects

section Laws

variable {file file' : List Statement} {place : String → String} {settingsPath : String}

lemma trimStart_colon (s : String) : trimStart (":" ++ s) ":" = trimStart s ":" := by
  have hlength : (":" ++ s).toList.length = s.toList.length + 1 := by simp
  have hstrip : stripPrefix (":" ++ s) ":" = some s := stripPrefix_eq_some.mpr rfl
  rw [trimStart, hlength, trimStartUpTo, hstrip]
  rfl

lemma project_moduleAt (place : String → String) (settingsPath : String) (file : List Statement) (r : Reference) :
    (moduleAt place settingsPath file r.written).project = r.project.val :=
  (trimStart_colon r.written).trans r.trimStart_written

lemma projectRoot_moduleAt {r : Reference} {dir : String} (h : lastSet (relocations file) r.project = some dir) :
    (moduleAt place settingsPath file r.written).projectRoot = place dir := by
  change place (((IterMap.ofPairs (relocations file)).lookup (trimStart r.written ":")).getD _) = _
  rw [r.trimStart_written, IterMap.lookup_ofPairs]
  rw [lastSet] at h
  rw [h, Option.getD_some]

lemma displayName_moduleAt {r : Reference} {name : String} (h : lastSet (renames file) r.project = some name) :
    (moduleAt place settingsPath file r.written).displayName =
      if r.leadingColon then directoryBasename (gradlePathToFilesystem r.project.val) else name := by
  change ((IterMap.ofPairs (renames file)).lookup r.written).getD
    (directoryBasename (gradlePathToFilesystem r.written)) = _
  rw [IterMap.lookup_ofPairs]
  split
  · rename_i hcolon
    have hwritten : r.written = ":" ++ r.project.val := by rw [Reference.written, if_pos hcolon]
    have hnone : (renames file).reverse.find? (fun e => e.1 = r.written) = none := by
      rw [List.find?_eq_none]
      intro e he
      obtain ⟨st, -, hst⟩ := List.mem_filterMap.mp (List.mem_reverse.mp he)
      have hkey : startsWith e.1 ":" = false := by
        cases hc : st.command with
        | includes | includeBuild | relocate => simp [hc, Command.rename?] at hst
        | rename w r' name' =>
          rw [hc, Command.rename?, Option.some_inj] at hst
          rw [← hst]
          exact r'.project.property.2
      rw [decide_eq_true_eq]
      intro heq
      rw [heq, hwritten, startsWith_iff.mpr ⟨_, rfl⟩] at hkey
      simp at hkey
    rw [hnone, Option.map_none, Option.getD_none, gradlePathToFilesystem,
      r.trimStart_written, gradlePathToFilesystem, trimStart_of_not_startsWith r.project.property.2]
  · rename_i hcolon
    have hwritten : r.written = r.project.val := by rw [Reference.written, if_neg hcolon]
    rw [lastSet] at h
    rw [hwritten, h, Option.getD_some]

lemma Renotated.renames_eq (h : Renotated file file') : renames file' = renames file := by
  rw [← renames_plain file', ← renames_plain file, h]

lemma Renotated.relocations_eq (h : Renotated file file') : relocations file' = relocations file := by
  rw [← relocations_plain file', ← relocations_plain file, h]

lemma Renotated.builds_eq (h : Renotated file file') : builds file' = builds file := by
  rw [← builds_plain file', ← builds_plain file, h]

lemma builds_of_same (h : (contributed file).map (moduleAt place settingsPath file) =
    (contributed (withoutBuilds file)).map (moduleAt place settingsPath (withoutBuilds file))) :
    ∀ b ∈ builds file, isProjectPath b = false := by
  have hlength := congrArg List.length h
  rw [List.length_map, List.length_map, length_contributed, length_contributed, builds_withoutBuilds, admitted,
    admitted, included_withoutBuilds] at hlength
  have hnone : ((builds file).filter isProjectPath).length = 0 := by simpa using hlength
  rw [List.length_eq_zero_iff, List.filter_eq_nil_iff] at hnone
  exact fun b hb => by simpa using hnone b hb

lemma gradlePaths_eq (file : List Statement) :
    ((contributed file).map (moduleAt place settingsPath file)).map (·.gradlePath) =
      (contributed file).map (":" ++ ·) := by
  rw [List.map_map]
  rfl

lemma notation_iff (h : Renotated file file') :
    NotationIndependent (fun file => (contributed file).map (moduleAt place settingsPath file)) place file file' ↔
      NotationSafe file file' := by
  constructor
  · rintro ⟨hsame, hrenamed, hrelocated, hbuilds⟩
    have hnone := builds_of_same hbuilds
    have hnone' : ∀ b ∈ builds file', isProjectPath b = false := h.builds_eq ▸ hnone
    have hadmitted := contributed_of_builds hnone
    have hpaths := congrArg (List.map (·.gradlePath)) hsame
    rw [gradlePaths_eq, gradlePaths_eq] at hpaths
    have hwritten := (List.map_injective_iff.mpr fun a b => append_left_unique) hpaths
    rw [contributed_of_builds hnone', hadmitted] at hwritten
    have hexists : ∀ p : ProjectPath,
        (∃ m ∈ (contributed file).map (moduleAt place settingsPath file), m.project = p.val) →
          ∃ r' ∈ admitted file, r'.project = p := by
      rintro p ⟨m, hm, hproject⟩
      rw [hadmitted, List.map_map] at hm
      obtain ⟨r', hr', rfl⟩ := List.mem_map.mp hm
      exact ⟨r', hr', Subtype.ext ((project_moduleAt place settingsPath file r').symm.trans hproject)⟩
    refine ⟨hwritten, ?_, ?_, hnone⟩
    · intro r hr name hname
      obtain ⟨hsome, hall⟩ := hrenamed r hr name hname
      refine ⟨hexists r.project hsome, fun r' hr' hproject => ?_⟩
      have hmem : moduleAt place settingsPath file r'.written ∈
          (contributed file).map (moduleAt place settingsPath file) := by
        rw [hadmitted, List.map_map]
        exact List.mem_map_of_mem hr'
      have hdisplay := hall _ hmem
        ((project_moduleAt place settingsPath file r').trans (congrArg Subtype.val hproject))
      rw [← hproject] at hname
      rw [displayName_moduleAt hname] at hdisplay
      cases hcolon : r'.leadingColon with
      | false => exact .inl rfl
      | true =>
        rw [hcolon, if_pos rfl, hproject] at hdisplay
        exact .inr hdisplay.symm
    · intro r hr dir hdir
      exact hexists r.project (hrelocated r hr dir hdir).1
  · rintro ⟨hsame, hrenamed, hrelocated, hnone⟩
    have hnone' : ∀ b ∈ builds file', isProjectPath b = false := h.builds_eq ▸ hnone
    have hadmitted := contributed_of_builds hnone
    have hexists : ∀ p : ProjectPath, (∃ r' ∈ admitted file, r'.project = p) →
        ∃ m ∈ (contributed file).map (moduleAt place settingsPath file), m.project = p.val := by
      rintro p ⟨r', hr', rfl⟩
      refine ⟨_, ?_, project_moduleAt place settingsPath file r'⟩
      rw [hadmitted, List.map_map]
      exact List.mem_map_of_mem hr'
    have hmodule : ∀ p : ProjectPath,
        ∀ m ∈ (contributed file).map (moduleAt place settingsPath file), m.project = p.val →
          ∃ r' ∈ admitted file, r'.project = p ∧ m = moduleAt place settingsPath file r'.written := by
      intro p m hm hproject
      rw [hadmitted, List.map_map] at hm
      obtain ⟨r', hr', rfl⟩ := List.mem_map.mp hm
      exact ⟨r', hr', Subtype.ext ((project_moduleAt place settingsPath file r').symm.trans hproject), rfl⟩
    refine ⟨?_, ?_, ?_, ?_⟩
    · rw [contributed_of_builds hnone', hadmitted, hsame]
      refine List.map_congr_left fun p _ => ?_
      rw [moduleAt, moduleAt, h.renames_eq, h.relocations_eq]
    · intro r hr name hname
      obtain ⟨hsome, hcolons⟩ := hrenamed r hr name hname
      refine ⟨hexists r.project hsome, fun m hm hproject => ?_⟩
      obtain ⟨r', hr', hr'', rfl⟩ := hmodule r.project m hm hproject
      rw [displayName_moduleAt (hr'' ▸ hname), hr'']
      rcases hcolons r' hr' hr'' with hcolon | hdefault
      · rw [hcolon, if_neg (by simp)]
      · rw [← hdefault, ite_self]
    · intro r hr dir hdir
      refine ⟨hexists r.project (hrelocated r hr dir hdir), fun m hm hproject => ?_⟩
      obtain ⟨r', hr', hr'', rfl⟩ := hmodule r.project m hm hproject
      exact projectRoot_moduleAt (hr'' ▸ hdir)
    · have hbuilds : ∀ b ∈ builds (withoutBuilds file), isProjectPath b = false := by
        rw [builds_withoutBuilds]
        simp
      rw [hadmitted, contributed_of_builds hbuilds, admitted, admitted, included_withoutBuilds]
      refine List.map_congr_left fun p _ => ?_
      rw [moduleAt, moduleAt, renames_withoutBuilds, relocations_withoutBuilds]

end Laws

theorem settings_notation_iff (settingsPath : String) {file file' : List Statement} (h : Renotated file file') :
    (NotationIndependent (fun file => (parseSettingsGradle (settingsText file) settingsPath).subprojects) id file
        file' ↔ NotationSafe file file') ∧
      (NotationIndependent (fun file => (parseSettingsGradleRooted (settingsText file) settingsPath).subprojects)
        (rootedAt settingsPath) file file' ↔ NotationSafe file file') := by
  simp only [subprojects_parse, subprojects_parseRooted]
  exact ⟨notation_iff h, notation_iff h⟩

section Example

def noBlank : Blank := ⟨[], by simp⟩

def oneGap : Gap := ⟨[' '], by simp [isWhitespace]⟩

def bareCall : CallLayout := ⟨oneGap, none⟩

def bareAssign : AssignLayout := ⟨noBlank, noBlank, noBlank, noBlank, noBlank, noBlank, noBlank⟩

def Command.statement (c : Command) : Statement := ⟨noBlank, c, noBlank⟩

def coreProject (leadingColon : Bool) : Reference :=
  ⟨⟨"core", ⟨by decide, by simp [isQuote]⟩, by decide⟩, leadingColon, .single⟩

def renamedCore (colon colon' : Bool) : List Statement :=
  [(Command.includes bareCall (coreProject colon) []).statement,
    (Command.rename bareAssign (coreProject colon') ⟨"kernel", ⟨by decide, by simp [isQuote]⟩, .single⟩).statement]

example : settingsText (renamedCore true true) = "include ':core'\nproject(':core').name='kernel'" := by decide

theorem leading_colon_changes_subprojects :
    Renotated (renamedCore true true) (renamedCore false true) ∧
      ¬ NotationIndependent (fun file =>
        (parseSettingsGradle (settingsText file) "settings.gradle").subprojects) id
        (renamedCore true true) (renamedCore false true) := by
  refine ⟨rfl, fun h => ?_⟩
  have hsame := h.same
  revert hsame
  decide +kernel

/-- Where no included path has a colon, the notation of the renamed path is free. -/
theorem settings_notation_iff_core :
    NotationIndependent (fun file => (parseSettingsGradle (settingsText file) "settings.gradle").subprojects) id
      (renamedCore false true) (renamedCore false false) := by
  have hadmitted : admitted (renamedCore false true) = [coreProject false] :=
    List.filter_eq_self.mpr fun r hr => by
      rw [show r = coreProject false from List.mem_singleton.mp hr]
      decide +kernel
  have hfiles : Renotated (renamedCore false true) (renamedCore false false) := rfl
  refine (settings_notation_iff "settings.gradle" hfiles).1.mpr ⟨rfl, ?_, ?_, ?_⟩
  · intro r hr name _
    rw [show r = coreProject false from List.mem_singleton.mp hr, hadmitted]
    refine ⟨⟨coreProject false, List.mem_singleton_self _, rfl⟩, fun r' hr' _ => .inl ?_⟩
    rw [List.mem_singleton.mp hr']
    rfl
  · intro r hr dir hdir
    exact absurd hdir (by simp [relocations, lastSet, renamedCore, Command.statement, Command.relocate?])
  · simp [builds, renamedCore, Command.statement, Command.build?]

end Example

end RepoGraph.Indexer
