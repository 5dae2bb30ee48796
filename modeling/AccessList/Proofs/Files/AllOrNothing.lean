import AccessList.Proofs.Files.Outputs

/-!
# A policy is written completely or not at all

A policy that does not load, does not compile, is for other platforms or cannot be written leaves the files as they are.
A run ends at the first policy that fails, with what the policies before it have written.
-/

namespace AccessList

structure FileView (σ Place : Type) where
  place? : σ → String → Option Place
  text? : σ → Place → Option String

/-- The second state is the first one with a text where a path leads. -/
structure FileView.Puts {σ Place : Type} (v : FileView σ Place) (w w' : σ) (path text : String) : Prop where
  there : ∃ place, v.place? w path = some place ∧ v.text? w' place = some text ∧
    ∀ other, other ≠ place → v.text? w' other = v.text? w other
  places : ∀ other, v.place? w' other = v.place? w other

structure FileView.Same {σ Place : Type} (v : FileView σ Place) (w w' : σ) : Prop where
  texts : ∀ place, v.text? w' place = v.text? w place
  places : ∀ path, v.place? w' path = v.place? w path

namespace FileView.Same

variable {σ Place : Type} {v : FileView σ Place} {w w₁ w₂ : σ}

theorem refl (w : σ) : v.Same w w := ⟨fun _ => rfl, fun _ => rfl⟩

theorem trans (h : v.Same w w₁) (h' : v.Same w₁ w₂) : v.Same w w₂ :=
  ⟨fun place => (h'.texts place).trans (h.texts place), fun path => (h'.places path).trans (h.places path)⟩

end FileView.Same

/-- Files that a read leaves as they are, and a write too unless it succeeds. -/
structure FileSystem (σ Place : Type) extends FileView σ Place where
  access : FileAccess (StateM σ)
  print : ∀ w text, toFileView.Same w ((access.print text).run w).2
  read : ∀ w path, ∃ r, (access.read path).run w = (r, w) ∧ r.toOption = (place? w path).bind (text? w)
  write : ∀ w path text, (∃ e, (access.write path text).run w = (.error e, w)) ∨
    ∃ w', (access.write path text).run w = (.ok (), w') ∧ toFileView.Puts w w' path text

open FileAccess

namespace FileSystem

variable {σ Place : Type} {fs : FileSystem σ Place}

def contents (fs : FileSystem σ Place) (w : σ) (path : String) : Except IoError String :=
  ((fs.access.read path).run w).1

theorem run_read (w : σ) (path : String) : (fs.access.read path).run w = (fs.contents w path, w) := by
  obtain ⟨r, hr, -⟩ := fs.read w path
  rw [contents, hr]

/-! ## One policy -/

def Renders (fs : FileSystem σ Place) (config : Config) (w : σ) (path text : String) : Prop :=
  ∃ p, Policy.ofFile path (fs.contents w path) = .ok p ∧ p.filtersFor config.platform ≠ [] ∧
    renderPolicy config (.standard config.settings.termNameMaxLength) p = .ok text

def Skips (fs : FileSystem σ Place) (config : Config) (w : σ) (path : String) : Prop :=
  ∃ p, Policy.ofFile path (fs.contents w path) = .ok p ∧ p.filtersFor config.platform = []

inductive Unwritten (fs : FileSystem σ Place) (config : Config) (out path : String) (w : σ) :
    Except CompileError (Option String) → Prop
  | unloaded {e} (h : Policy.ofFile path (fs.contents w path) = .error e) :
    Unwritten fs config out path w (.error (.policy e))
  | skipped (h : fs.Skips config w path) : Unwritten fs config out path w (.ok none)
  | uncompiled {p e} (h : Policy.ofFile path (fs.contents w path) = .ok p) (hp : p.filtersFor config.platform ≠ [])
    (he : renderPolicy config (.standard config.settings.termNameMaxLength) p = .error e) :
    Unwritten fs config out path w (.error e)
  | refused {text cause} (h : fs.Renders config w path text)
    (hw : (fs.access.write (Path.output path out) text).run w = (.error cause, w)) :
    Unwritten fs config out path w (.error (.io (Path.output path out) cause))

section
variable {config : Config} {out path : String} {w : σ}

theorem renderFile_cases (fs : FileSystem σ Place) (config : Config) (path : String) (w : σ) :
    (∃ e, Policy.ofFile path (fs.contents w path) = .error e ∧
      renderFile config path (fs.contents w path) = .error (.policy e)) ∨
    (fs.Skips config w path ∧ renderFile config path (fs.contents w path) = .ok none) ∨
    (∃ p e, Policy.ofFile path (fs.contents w path) = .ok p ∧ p.filtersFor config.platform ≠ [] ∧
      renderPolicy config (.standard config.settings.termNameMaxLength) p = .error e ∧
      renderFile config path (fs.contents w path) = .error e) ∨
    ∃ text, fs.Renders config w path text ∧ renderFile config path (fs.contents w path) = .ok (some text) := by
  unfold renderFile
  cases hload : Policy.ofFile path (fs.contents w path) with
  | error e => exact .inl ⟨e, rfl, rfl⟩
  | ok p =>
    by_cases hfilters : p.filtersFor config.platform = []
    · exact .inr (.inl ⟨⟨p, hload, hfilters⟩, by simp [Except.mapError, bind, Except.bind, hfilters]; rfl⟩)
    · cases htext : renderPolicy config (.standard config.settings.termNameMaxLength) p with
      | error e =>
        refine .inr (.inr (.inl ⟨p, e, rfl, hfilters, htext, ?_⟩))
        simp [Except.mapError, bind, Except.bind, hfilters, htext]
      | ok text =>
        refine .inr (.inr (.inr ⟨text, ⟨p, hload, hfilters, htext⟩, ?_⟩))
        simp [Except.mapError, bind, Except.bind, hfilters, htext]; rfl

/-- Generating a file either changes nothing or puts the whole text of the policy in the one place. -/
theorem generateFile_cases (fs : FileSystem σ Place) (config : Config) (out path : String) (w : σ) :
    (∃ result, (generateFile fs.access config path out).run w = (result, w) ∧ fs.Unwritten config out path w result) ∨
      ∃ text w', (generateFile fs.access config path out).run w = (.ok (some (Path.output path out)), w') ∧
        fs.Renders config w path text ∧ fs.Puts w w' (Path.output path out) text := by
  rw [run_generateFile (run_read w path)]
  rcases renderFile_cases fs config path w with
    ⟨e, hload, h⟩ | ⟨hskips, h⟩ | ⟨p, e, hload, hfilters, he, h⟩ | ⟨text, hrenders, h⟩
  · rw [h]
    exact .inl ⟨_, rfl, .unloaded hload⟩
  · rw [h]
    exact .inl ⟨_, rfl, .skipped hskips⟩
  · rw [h]
    exact .inl ⟨_, rfl, .uncompiled hload hfilters he⟩
  · rw [h]
    rcases fs.write w (Path.output path out) text with ⟨cause, hwrite⟩ | ⟨w', hwrite, hputs⟩
    · exact .inl ⟨_, by simp only [hwrite], .refused hrenders hwrite⟩
    · exact .inr ⟨text, w', by simp only [hwrite], hrenders, hputs⟩

end

/-! ## A run -/

inductive Applied (fs : FileSystem σ Place) (config : Config) (out : String) : List String → σ → σ → Prop
  | nil (w : σ) : Applied fs config out [] w w
  | skip {path ps w w'} (h : fs.Skips config w path) (hps : Applied fs config out ps w w') :
    Applied fs config out (path :: ps) w w'
  | put {path ps text w w₁ w'} (h : fs.Renders config w path text) (hputs : fs.Puts w w₁ (Path.output path out) text)
    (hps : Applied fs config out ps w₁ w') : Applied fs config out (path :: ps) w w'

/-- How a run over policies ends: after all of them, or with the first that fails. -/
def Ends (fs : FileSystem σ Place) (config : Config) (out : String) (ps : List String) (w : σ) (failure : Option String)
    (w' : σ) : Prop :=
  failure = none ∧ fs.Applied config out ps w w' ∨
    ∃ front path back e, ps = front ++ path :: back ∧ failure = some (chain ("rendering " ++ path) e) ∧
      fs.Applied config out front w w' ∧ fs.Unwritten config out path w' (.error e)

section
variable {a : Arguments} {config : Config} {ps : List String} {path : String} {w w₁ w' : σ}

theorem Ends.cons {out : String} {failure : Option String}
    (hfirst : ∀ {front}, fs.Applied config out front w₁ w' → fs.Applied config out (path :: front) w w')
    (h : fs.Ends config out ps w₁ failure w') : fs.Ends config out (path :: ps) w failure w' := by
  rcases h with ⟨hnone, hall⟩ | ⟨front, path', back, e, rfl, hsome, hfront, hstop⟩
  · exact .inl ⟨hnone, hfirst hall⟩
  · exact .inr ⟨path :: front, path', back, e, rfl, hsome, hfirst hfront, hstop⟩

theorem processAll_ends (hfiles : a.print = false) (config : Config) (ps : List String) (w : σ) :
    ∃ failure w', (a.processAll fs.access config ps).run w = (failure, w') ∧
      fs.Ends config (a.outputDir.getD ".") ps w failure w' := by
  induction ps generalizing w with
  | nil => exact ⟨none, w, rfl, .inl ⟨rfl, .nil w⟩⟩
  | cons path ps ih =>
    rw [run_processAll_cons, run_process hfiles]
    rcases generateFile_cases fs config (a.outputDir.getD ".") path w with
      ⟨result, hrun, hstop⟩ | ⟨text, w₁, hrun, hrenders, hputs⟩
    · rw [hrun]
      cases result with
      | error e => exact ⟨_, w, rfl, .inr ⟨[], path, ps, e, rfl, rfl, .nil w, hstop⟩⟩
      | ok o =>
        obtain ⟨failure, w', hrest, hends⟩ := ih w
        cases hstop with
        | skipped hskips => exact ⟨failure, w', hrest, hends.cons (.skip hskips)⟩
    · rw [hrun]
      obtain ⟨failure, w', hrest, hends⟩ := ih w₁
      exact ⟨failure, w', hrest, hends.cons (.put hrenders hputs)⟩

theorem same_of_process (hprint : a.print = true) : fs.Same w ((a.process fs.access config path).run w).2 := by
  unfold Arguments.process
  rw [if_pos hprint, run_bind, run_read]
  cases renderFile config path (fs.contents w path) with
  | error e => exact .refl w
  | ok o =>
    cases o with
    | none => exact .refl w
    | some text => exact fs.print w _

theorem same_of_processAll (hprint : a.print = true) : fs.Same w ((a.processAll fs.access config ps).run w).2 := by
  induction ps generalizing w with
  | nil => exact .refl w
  | cons path ps ih =>
    have hfirst : fs.Same w ((a.process fs.access config path).run w).2 := same_of_process hprint
    rw [run_processAll_cons]
    cases hrun : (a.process fs.access config path).run w with
    | mk result w₁ =>
      rw [hrun] at hfirst
      cases result with
      | error e => exact hfirst
      | ok _ => exact hfirst.trans ih

theorem contents_of_puts {text : String} (h : fs.Puts w w' path text) : fs.contents w' path = .ok text := by
  obtain ⟨place, hplace, htext, -⟩ := h.there
  obtain ⟨r, hr, hcontents⟩ := fs.read w' path
  rw [h.places path, hplace, Option.bind_some, htext] at hcontents
  rw [contents, hr]
  cases r with
  | error e => cases hcontents
  | ok text' => cases hcontents; rfl

/-- Generating a file changes nothing, or it puts the whole text of the policy in its place and answers with the path. A
run takes the policies in order and ends at the first that fails: by then the files are what the policies before it have
made of them, in order. A run that prints, or does not get as far as the policies, changes nothing. -/
theorem run_all_or_nothing (fs : FileSystem σ Place) (a : Arguments) :
    (∀ config out path w,
      (∃ result, (generateFile fs.access config path out).run w = (result, w) ∧
          fs.Unwritten config out path w result) ∨
        ∃ text w', (generateFile fs.access config path out).run w = (.ok (some (Path.output path out)), w') ∧
          fs.Renders config w path text ∧ fs.Puts w w' (Path.output path out) text ∧
          fs.contents w' (Path.output path out) = .ok text) ∧
    (∀ config ps w, ∃ failure w', (a.processAll fs.access config ps).run w = (failure, w') ∧
      if a.print then fs.Same w w' else fs.Ends config (a.outputDir.getD ".") ps w failure w') ∧
    ∀ date w, ∃ report w', (a.run fs.access date).run w = (report, w') ∧
      (report.exit ≠ 0 ∧ w' = w ∨
        ∃ settings failure, ((a.load fs.access).run w).1 = .ok settings ∧ (report.exit = 0 ↔ failure = none) ∧
          if a.print then fs.Same w w'
          else fs.Ends (settings.on date) (a.outputDir.getD ".") a.policies w failure w') := by
  have hall : ∀ config ps w, ∃ failure w', (a.processAll fs.access config ps).run w = (failure, w') ∧
      if a.print then fs.Same w w' else fs.Ends config (a.outputDir.getD ".") ps w failure w' := by
    intro config ps w
    cases hprint : a.print with
    | true => exact ⟨_, _, rfl, same_of_processAll hprint⟩
    | false => simpa using processAll_ends hprint config ps w
  refine ⟨fun config out path w => ?_, hall, fun date w => ?_⟩
  · rcases generateFile_cases fs config out path w with hnothing | ⟨text, w', hrun, hrenders, hputs⟩
    · exact .inl hnothing
    · exact .inr ⟨text, w', hrun, hrenders, hputs, contents_of_puts hputs⟩
  · have hread : ∀ path, ((fs.access.read path).run w).2 = w := fun path => by rw [run_read]
    rcases run_cases hread a date with ⟨report, hrun, hexit⟩ | ⟨settings, report, hload, hrun, hexit⟩
    · exact ⟨report, w, hrun, .inl ⟨hexit, rfl⟩⟩
    · obtain ⟨failure, w', hpolicies, hends⟩ := hall (settings.on date) a.policies w
      rw [hpolicies] at hrun hexit
      exact ⟨report, w', hrun, .inr ⟨settings, failure, hload, hexit, hends⟩⟩

end

end FileSystem

/-! ## Two file systems -/

def FileEntry.text? : FileEntry → Option String
  | directory => none
  | file text => text

namespace Workspace

def view : FileView Workspace (List String) where
  place? w path := (w.tree.find path).toOption
  text? w names := (w.tree.entry? names).bind FileEntry.text?

theorem toOption_read (w : Workspace) (path : String) :
    (w.tree.read path).toOption = (view.place? w path).bind (view.text? w) := by
  unfold FileTree.read view
  dsimp only
  cases w.tree.find path with
  | error e => rfl
  | ok names =>
    simp only [bind, Except.bind]
    cases hentry : w.tree.entry? names with
    | none => simp [Except.toOption, hentry]; rfl
    | some entry =>
      cases entry with
      | directory => simp [Except.toOption, hentry]; rfl
      | file text => cases text <;> simp [Except.toOption, hentry] <;> rfl

theorem puts_of_written {w : Workspace} {tree : FileTree} {path text : String} {names : List String}
    (hfind : w.tree.find path = .ok names) (h : w.tree.Written tree names text) :
    view.Puts w { w with tree } path text := by
  refine ⟨⟨names, ?_, ?_, fun other hother => ?_⟩, fun other => Option.ext fun names' => ?_⟩
  · simp [view, hfind, Except.toOption]
  · simp [view, h.there, FileEntry.text?]
  · simp [view, h.elsewhere other hother]
  · simp only [view, toOption_eq_some_iff, h.find_eq_ok_iff]

def fileSystem : FileSystem Workspace (List String) where
  toFileView := view
  access := access
  read w path := ⟨w.tree.read path, run_read w path, toOption_read w path⟩
  write w path text := by
    rw [run_write]
    cases hwrite : w.tree.write path text with
    | error e => exact .inl ⟨e, rfl⟩
    | ok tree =>
      obtain ⟨names, hfind, hwritten⟩ := FileTree.written_of_write hwrite
      exact .inr ⟨_, rfl, puts_of_written hfind hwritten⟩
  print w text := ⟨fun _ => rfl, fun _ => rfl⟩

end Workspace

namespace FileSystem

def ofMap (refusal? : (String → Option String) → String → String → Option IoError) :
    FileSystem (String → Option String) String where
  place? _ path := some path
  text? files path := files path
  access := {
    read := fun path files => ((files path).elim (.error .notFound) .ok, files)
    write := fun path text files =>
      match refusal? files path text with
      | some cause => (.error cause, files)
      | none => (.ok (), fun other => if other = path then some text else files other)
    print := fun _ files => ((), files) }
  read files path := ⟨_, rfl, by cases h : files path <;> simp [Except.toOption, h]⟩
  write files path text := by
    cases h : refusal? files path text with
    | some cause => exact .inl ⟨cause, by simp [StateT.run, h]⟩
    | none =>
      refine .inr ⟨fun other => if other = path then some text else files other, by simp [StateT.run, h], ?_⟩
      exact ⟨⟨path, rfl, if_pos rfl, fun other hother => if_neg hother⟩, fun _ => rfl⟩
  print _ _ := .refl _

example :
    let files := fun path => if path = "a/edge.json" then some (Workspace.policyText "north") else none
    let answer := (generateFile (ofMap fun _ _ _ => some .isDirectory).access (({} : Settings).on .greatest)
      "a/edge.json" "out").run files
    answer.1 = .error (.io "out/edge.acl" .isDirectory) ∧ answer.2 "out/edge.acl" = none := by decide +kernel

/-- Of three policies the second is missing: the first is written and the third is not. -/
theorem run_until_missing :
    let a : Arguments := { policies := ["a/edge.json", "c/none.json", "b/core.json"], outputDir := some "out" }
    let w := Workspace.twoPolicies "edge.json" "core.json"
    ∃ report w', (a.run Workspace.access .greatest).run w = (report, w') ∧ report.exit = 1 ∧
      (∃ failure, Workspace.fileSystem.Ends (({} : Settings).on .greatest) "out" a.policies w (some failure) w') ∧
      w'.tree.read "out/edge.acl" = .ok (Workspace.filterText "north") ∧
      w'.tree.read "out/core.acl" = .error .notFound := by
  intro a w
  have hload : ((a.load Workspace.access).run w).1 = .ok {} := rfl
  have hexit : ((a.run Workspace.access .greatest).run w).1.exit = 1 ∧
      ((a.run Workspace.access .greatest).run w).2.tree.read "out/edge.acl" = .ok (Workspace.filterText "north") ∧
      ((a.run Workspace.access .greatest).run w).2.tree.read "out/core.acl" = .error .notFound := by decide +kernel
  obtain ⟨-, -, hruns⟩ := run_all_or_nothing Workspace.fileSystem a
  obtain ⟨report, w', hrun, hends⟩ := hruns .greatest w
  change (a.run Workspace.access .greatest).run w = (report, w') at hrun
  rw [hrun] at hexit
  refine ⟨report, w', hrun, hexit.1, ?_, hexit.2⟩
  rcases hends with ⟨-, rfl⟩ | ⟨settings, failure, hsettings, hfailure, hends⟩
  · have hfresh : w.tree.read "out/edge.acl" ≠ .ok (Workspace.filterText "north") := by decide +kernel
    exact absurd hexit.2.1 hfresh
  · rw [show Workspace.fileSystem.access = Workspace.access from rfl, hload] at hsettings
    cases hsettings
    cases failure with
    | none =>
      have hzero := hfailure.mpr rfl
      rw [hexit.1] at hzero
      cases hzero
    | some failure => exact ⟨failure, hends⟩

end FileSystem

end AccessList
