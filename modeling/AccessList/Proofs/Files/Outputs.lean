import AccessList.CommandLine
import AccessList.Proofs.Files.Names

/-!
# What a run leaves behind

A run takes the policies in order, and each one is written over what has its stem. So the file of a stem is that of the
last policy with the stem, and nothing else changes.
-/

namespace AccessList

/-! ## One policy -/

namespace FileTree

variable {t t' : FileTree} {config : Config} {out path : String} {names : List String} {text : String}

structure Writes (t : FileTree) (config : Config) (out path : String) (names : List String) (text : String) : Prop where
  text : renderFile config path (t.read path) = .ok (some text)
  place : t.find (Path.output path out) = .ok names

theorem contents_of_renderFile {contents : Except IoError String} {o : Option String}
    (h : renderFile config path contents = .ok o) : ∃ text, contents = .ok text := by
  cases contents with
  | error e => cases h
  | ok text => exact ⟨text, rfl⟩

/-- A write does not bear on what another file is rendered to. -/
theorem Written.renderFile_eq_ok_iff (h : t.Written t' names text) (hpath : t.find path ≠ .ok names)
    {o : Option String} :
    renderFile config path (t'.read path) = .ok o ↔ renderFile config path (t.read path) = .ok o := by
  refine ⟨fun hrender => ?_, fun hrender => ?_⟩
  · obtain ⟨contents, hread⟩ := contents_of_renderFile hrender
    rw [(h.read_eq_ok_iff hpath).mp hread, ← hread]
    exact hrender
  · obtain ⟨contents, hread⟩ := contents_of_renderFile hrender
    rw [(h.read_eq_ok_iff hpath).mpr hread, ← hread]
    exact hrender

theorem Written.writes_iff (h : t.Written t' names text) (hpath : t.find path ≠ .ok names) {other : List String}
    {text' : String} : t'.Writes config out path other text' ↔ t.Writes config out path other text' := by
  refine ⟨fun hw => ⟨?_, ?_⟩, fun hw => ⟨?_, ?_⟩⟩
  · exact (h.renderFile_eq_ok_iff hpath).mp hw.text
  · exact h.find_eq_ok_iff.mp hw.place
  · exact (h.renderFile_eq_ok_iff hpath).mpr hw.text
  · exact h.find_eq_ok_iff.mpr hw.place

end FileTree

/-! ## Steps of a run -/

namespace FileAccess

variable {σ : Type} {files : FileAccess (StateM σ)} {a : Arguments} {config : Config} {path out : String} {w : σ}

theorem run_bind {α β : Type} (x : StateM σ α) (f : α → StateM σ β) (w : σ) :
    (x >>= f).run w = (f (x.run w).1).run (x.run w).2 := rfl

theorem run_generateFile {contents : Except IoError String} (hread : (files.read path).run w = (contents, w)) :
    (generateFile files config path out).run w =
      match renderFile config path contents with
      | .error e => (.error e, w)
      | .ok none => (.ok none, w)
      | .ok (some text) =>
        match (files.write (Path.output path out) text).run w with
        | (.error cause, w') => (.error (.io (Path.output path out) cause), w')
        | (.ok (), w') => (.ok (some (Path.output path out)), w') := by
  unfold generateFile
  rw [run_bind, hread]
  cases renderFile config path contents with
  | error e => rfl
  | ok o =>
    cases o with
    | none => rfl
    | some text =>
      simp only [run_bind]
      cases (files.write (Path.output path out) text).run w with
      | mk result w' => cases result <;> rfl

theorem run_process (hfiles : a.print = false) :
    (a.process files config path).run w =
      match (generateFile files config path (a.outputDir.getD ".")).run w with
      | (result, w') => (result.map fun _ => (), w') := by
  unfold Arguments.process
  rw [if_neg (by simp [hfiles]), run_bind]
  rfl

theorem run_processAll_cons {rest : List String} :
    (a.processAll files config (path :: rest)).run w =
      match (a.process files config path).run w with
      | (.error e, w') => (some (chain ("rendering " ++ path) e), w')
      | (.ok (), w') => (a.processAll files config rest).run w' := by
  rw [Arguments.processAll, run_bind]
  cases (a.process files config path).run w with
  | mk result w' => cases result <;> rfl

theorem run_load (hread : ∀ path, ((files.read path).run w).2 = w) (a : Arguments) :
    ((a.load files).run w).2 = w := by
  unfold Arguments.load
  cases a.settings with
  | none => rfl
  | some path => exact hread path

/-- A run takes the policies if its log rules and its settings can be taken apart. -/
theorem run_cases (hread : ∀ path, ((files.read path).run w).2 = w) (a : Arguments) (date : Date) :
    (∃ report, (a.run files date).run w = (report, w) ∧ report.exit ≠ 0) ∨
      ∃ settings report, ((a.load files).run w).1 = .ok settings ∧
        (a.run files date).run w = (report, ((a.processAll files (settings.on date) a.policies).run w).2) ∧
        (report.exit = 0 ↔ ((a.processAll files (settings.on date) a.policies).run w).1 = none) := by
  unfold Arguments.run
  cases a.logRules with
  | error fault => exact .inl ⟨{ exit := 101 }, rfl, by decide⟩
  | ok rules =>
    simp only [run_bind, run_load hread]
    cases ((a.load files).run w).1 with
    | error e => exact .inl ⟨_, rfl, by simp⟩
    | ok settings =>
      refine .inr ⟨settings, ?_⟩
      simp only [run_bind]
      cases ((a.processAll files (settings.on date) a.policies).run w).1 with
      | none => exact ⟨_, trivial, rfl, by simp⟩
      | some message => exact ⟨_, trivial, rfl, by simp⟩

end FileAccess

open FileAccess

namespace Workspace

theorem run_read (w : Workspace) (path : String) : (access.read path).run w = (w.tree.read path, w) := rfl

theorem run_write (w : Workspace) (path text : String) :
    (access.write path text).run w =
      match w.tree.write path text with
      | .error e => (.error e, w)
      | .ok tree => (.ok (), { w with tree }) := by
  simp only [access, StateT.run_bind, StateT.run_get, pure_bind]
  cases w.tree.write path text with
  | error e => rfl
  | ok tree => rfl

variable {a : Arguments} {config : Config} {path out : String} {w w' : Workspace}

/-- What processing a policy does when it succeeds. -/
theorem process_eq_ok (hfiles : a.print = false) (h : (a.process access config path).run w = (.ok (), w')) :
    ∃ o, renderFile config path (w.tree.read path) = .ok o ∧ (o = none → w' = w) ∧
      ∀ text, o = some text → ∃ names, w.tree.find (Path.output path (a.outputDir.getD ".")) = .ok names ∧
        w.tree.Written w'.tree names text := by
  rw [run_process hfiles, run_generateFile (run_read w path)] at h
  cases hrender : renderFile config path (w.tree.read path) with
  | error e =>
    rw [hrender] at h
    cases h
  | ok o =>
    rw [hrender] at h
    refine ⟨o, rfl, ?_⟩
    cases o with
    | none =>
      cases h
      exact ⟨fun _ => rfl, nofun⟩
    | some text =>
      refine ⟨nofun, fun text' heq => ?_⟩
      cases heq
      cases hwrite : w.tree.write (Path.output path (a.outputDir.getD ".")) text with
      | error cause =>
        simp only [run_write, hwrite] at h
        cases h
      | ok tree =>
        simp only [run_write, hwrite] at h
        cases h
        exact FileTree.written_of_write hwrite

end Workspace

/-! ## All policies -/

structure FileTree.Leaves (config : Config) (out : String) (ps : List String) (t t' : FileTree) : Prop where
  renders : ∀ p ∈ ps, ∃ o, renderFile config p (t.read p) = .ok o
  places : ∀ p ∈ ps, ∀ text, renderFile config p (t.read p) = .ok (some text) →
    ∃ names, t.find (Path.output p out) = .ok names
  found : ∀ path names, t'.find path = .ok names ↔ t.find path = .ok names
  last : ∀ front p back names text, ps = front ++ p :: back → t.Writes config out p names text →
    (∀ q ∈ back, ∀ text, ¬t.Writes config out q names text) → t'.entry? names = some (.file (some text))
  elsewhere : ∀ names, (∀ p ∈ ps, ∀ text, ¬t.Writes config out p names text) → t'.entry? names = t.entry? names

namespace FileTree

variable {config : Config} {out p : String} {ps : List String} {t t' t'' : FileTree}

theorem leaves_nil : Leaves config out [] t t := by
  refine ⟨nofun, nofun, fun _ _ => Iff.rfl, ?_, fun _ _ => rfl⟩
  intro front p back names text h
  exact absurd h.symm (List.append_ne_nil_of_right_ne_nil _ (List.cons_ne_nil _ _))

/-- A policy that goes to no file changes nothing. -/
theorem leaves_cons_of_none (h : renderFile config p (t.read p) = .ok none) (hps : Leaves config out ps t t') :
    Leaves config out (p :: ps) t t' := by
  have hnone : ∀ names text, ¬t.Writes config out p names text := by
    intro names text hw
    have htext := hw.text
    rw [h] at htext
    cases htext
  refine ⟨?_, ?_, hps.found, ?_, ?_⟩
  · exact List.forall_mem_cons.mpr ⟨⟨_, h⟩, hps.renders⟩
  · refine List.forall_mem_cons.mpr ⟨fun text htext => ?_, hps.places⟩
    rw [h] at htext
    cases htext
  · intro front q back names text heq hw hback
    cases front with
    | nil =>
      cases heq
      exact absurd hw (hnone names text)
    | cons p' front =>
      cases heq
      exact hps.last front q back names text rfl hw hback
  · exact fun names hfree => hps.elsewhere names (List.forall_mem_cons.mp hfree).2

/-- A policy that is written leaves its text where no later one goes. -/
theorem leaves_cons_of_some {names : List String} {text : String} (h : t.Writes config out p names text)
    (hwritten : t.Written t' names text) (hapart : ∀ q ∈ ps, t.find q ≠ .ok names)
    (hps : Leaves config out ps t' t'') : Leaves config out (p :: ps) t t'' := by
  have hwrites : ∀ q ∈ ps, ∀ other text', t'.Writes config out q other text' ↔ t.Writes config out q other text' :=
    fun q hq other text' => hwritten.writes_iff (hapart q hq)
  refine ⟨?_, ?_, ?_, ?_, ?_⟩
  · refine List.forall_mem_cons.mpr ⟨⟨_, h.text⟩, fun q hq => ?_⟩
    obtain ⟨o, ho⟩ := hps.renders q hq
    exact ⟨o, (hwritten.renderFile_eq_ok_iff (hapart q hq)).mp ho⟩
  · refine List.forall_mem_cons.mpr ⟨fun _ _ => ⟨names, h.place⟩, fun q hq text' htext => ?_⟩
    obtain ⟨other, hother⟩ := hps.places q hq text' ((hwritten.renderFile_eq_ok_iff (hapart q hq)).mpr htext)
    exact ⟨other, hwritten.find_eq_ok_iff.mp hother⟩
  · exact fun path other => (hps.found path other).trans hwritten.find_eq_ok_iff
  · intro front q back other text' heq hw hback
    cases front with
    | nil =>
      cases heq
      have hsame : names = other ∧ text = text' := by
        have hplace := h.place
        have htext := h.text
        rw [hw.place] at hplace
        rw [hw.text] at htext
        cases hplace
        cases htext
        exact ⟨rfl, rfl⟩
      obtain ⟨rfl, rfl⟩ := hsame
      rw [hps.elsewhere names fun q hq text' hw' => hback q hq text' ((hwrites q hq _ _).mp hw')]
      exact hwritten.there
    | cons p' front =>
      cases heq
      have hq : q ∈ front ++ q :: back := List.mem_append_right _ (List.mem_cons_self ..)
      refine hps.last front q back other text' rfl ((hwrites q hq _ _).mpr hw) fun r hr text'' hw' => ?_
      have hr' : r ∈ front ++ q :: back := List.mem_append_right _ (List.mem_cons_of_mem _ hr)
      exact hback r hr text'' ((hwrites r hr' _ _).mp hw')
  · intro other hfree
    obtain ⟨hfirst, hrest⟩ := List.forall_mem_cons.mp hfree
    rw [hps.elsewhere other fun q hq text' hw => hrest q hq text' ((hwrites q hq _ _).mp hw)]
    exact hwritten.elsewhere other fun heq => hfirst text (heq ▸ h)

end FileTree

/-- A run over policies that none of them is written over leaves what they leave. -/
theorem Workspace.leaves_of_processAll {a : Arguments} {config : Config} {ps : List String} {w w' : Workspace}
    (hfiles : a.print = false) (hrun : (a.processAll access config ps).run w = (none, w'))
    (hapart : ∀ p ∈ ps, ∀ q ∈ ps, ∀ names text, w.tree.Writes config (a.outputDir.getD ".") q names text →
      w.tree.find p ≠ .ok names) :
    FileTree.Leaves config (a.outputDir.getD ".") ps w.tree w'.tree := by
  induction ps generalizing w with
  | nil =>
    cases hrun
    exact FileTree.leaves_nil
  | cons p ps ih =>
    rw [run_processAll_cons] at hrun
    cases hp : (a.process access config p).run w with
    | mk result w₁ =>
      rw [hp] at hrun
      cases result with
      | error e => cases hrun
      | ok _ =>
        obtain ⟨o, ho, hnone, hsome⟩ := process_eq_ok hfiles hp
        obtain ⟨-, hps⟩ := List.forall_mem_cons.mp hapart
        cases o with
        | none =>
          rw [hnone rfl] at hrun
          refine FileTree.leaves_cons_of_none ho (ih hrun fun q hq r hr => ?_)
          exact hps q hq r (List.mem_cons_of_mem _ hr)
        | some text =>
          obtain ⟨names, hplace, hwritten⟩ := hsome text rfl
          have hwrites : w.tree.Writes config (a.outputDir.getD ".") p names text := ⟨ho, hplace⟩
          have hfree : ∀ q ∈ ps, w.tree.find q ≠ .ok names := fun q hq =>
            hps q hq p (List.mem_cons_self ..) names text hwrites
          refine FileTree.leaves_cons_of_some hwrites hwritten hfree (ih hrun fun q hq r hr other text' hw => ?_)
          rw [hwritten.writes_iff (hfree r hr)] at hw
          rw [Ne, hwritten.find_eq_ok_iff]
          exact hps q hq r (List.mem_cons_of_mem _ hr) other text' hw

/-! ## The run -/

theorem exists_last {α : Type} {P : α → Prop} {as : List α} (h : ∃ a ∈ as, P a) :
    ∃ front a back, as = front ++ a :: back ∧ P a ∧ ∀ b ∈ back, ¬P b := by
  induction as with
  | nil =>
    obtain ⟨a, ha, -⟩ := h
    cases ha
  | cons a as ih =>
    by_cases hrest : ∃ b ∈ as, P b
    · obtain ⟨front, b, back, rfl, hb, hback⟩ := ih hrest
      exact ⟨a :: front, b, back, rfl, hb, hback⟩
    · have hlast : ∀ b ∈ as, ¬P b := fun b hb hP => hrest ⟨b, hb, hP⟩
      obtain ⟨b, hb, hP⟩ := h
      rcases List.mem_cons.mp hb with rfl | hb
      · exact ⟨[], b, as, rfl, hP, hlast⟩
      · exact absurd hP (hlast b hb)

namespace FileTree

variable {config : Config} {out p : String} {ps : List String} {t t' : FileTree} {text : String}

structure LastWith (t : FileTree) (config : Config) (ps : List String) (stem p text : String) : Prop where
  hstem : Path.stem? p = some stem
  htext : renderFile config p (t.read p) = .ok (some text)
  hlast : ∃ front back, ps = front ++ p :: back ∧
    ∀ q ∈ back, ∀ text, renderFile config q (t.read q) = .ok (some text) → Path.stem? q ≠ some stem

theorem stem?_of_renderFile {o : Option String} (h : renderFile config p (t.read p) = .ok o) :
    ∃ stem, Path.stem? p = some stem := by
  obtain ⟨contents, hread⟩ := contents_of_renderFile h
  exact stem?_of_read hread

theorem output_of_stem? {stem : String} (h : Path.stem? p = some stem) :
    Path.output p out = Path.join out (stem ++ ".acl") := by
  unfold Path.output
  rw [h, Option.getD_some]

/-- The file of a stem holds the text of the last policy with it. -/
theorem Leaves.exists_lastWith (h : Leaves config out ps t t') (hp : p ∈ ps)
    (htext : renderFile config p (t.read p) = .ok (some text)) :
    ∃ stem q text', Path.stem? p = some stem ∧ t.LastWith config ps stem q text' ∧
      t'.read (Path.join out (stem ++ ".acl")) = .ok text' := by
  obtain ⟨names, hplace⟩ := h.places p hp text htext
  obtain ⟨stem, hstem⟩ := stem?_of_renderFile htext
  obtain ⟨front, q, back, hps, ⟨text', hw⟩, hback⟩ :=
    @exists_last _ (fun q => ∃ text, t.Writes config out q names text) _ ⟨p, hp, text, htext, hplace⟩
  obtain ⟨stem', hstem'⟩ := stem?_of_renderFile hw.text
  have hsame : stem' = stem := (output_eq_iff hstem' hstem hw.place hplace).mp rfl
  subst hsame
  refine ⟨stem', q, text', hstem, ⟨hstem', hw.text, front, back, hps, fun r hr text'' hr' hstem'' => ?_⟩, ?_⟩
  · refine hback r hr ⟨text'', hr', ?_⟩
    rw [output_of_stem? hstem'', ← output_of_stem? hstem]
    exact hplace
  · rw [← output_of_stem? hstem]
    refine read_eq_ok_iff.mpr ⟨names, (h.found _ _).mpr hplace, ?_⟩
    exact h.last front q back names text' hps hw fun r hr text'' hw' => hback r hr ⟨text'', hw'⟩

/-- All policies find their texts again just when no two with one stem have different ones. -/
theorem Leaves.all_read_iff (h : Leaves config out ps t t') :
    (∀ p ∈ ps, ∀ text, renderFile config p (t.read p) = .ok (some text) → t'.read (Path.output p out) = .ok text) ↔
      ∀ p ∈ ps, ∀ q ∈ ps, ∀ text text', renderFile config p (t.read p) = .ok (some text) →
        renderFile config q (t.read q) = .ok (some text') → Path.stem? p = Path.stem? q → text = text' := by
  refine ⟨fun hall p hp q hq text text' htext htext' hstem => ?_, fun hsame p hp text htext => ?_⟩
  · have hread := hall p hp text htext
    have hread' := hall q hq text' htext'
    have houtput : Path.output p out = Path.output q out := by
      obtain ⟨stem, hp⟩ := stem?_of_renderFile htext
      rw [output_of_stem? hp, output_of_stem? (hstem ▸ hp)]
    rw [houtput, hread'] at hread
    cases hread
    rfl
  · obtain ⟨stem, q, text', hstem, hlast, hread⟩ := h.exists_lastWith hp htext
    obtain ⟨front, back, hps, -⟩ := hlast.hlast
    have hq : q ∈ ps := hps ▸ List.mem_append_right _ (List.mem_cons_self ..)
    rw [output_of_stem? hstem, hread, hsame p hp q hq text text' htext hlast.htext (hstem.trans hlast.hstem.symm)]

end FileTree

namespace Workspace

variable {a : Arguments} {date : Date} {settings : Settings} {report : Report} {w w' : Workspace}

theorem processAll_of_run (hload : ((a.load access).run w).1 = .ok settings)
    (hrun : (a.run access date).run w = (report, w')) (hexit : report.exit = 0) :
    (a.processAll access (settings.on date) a.policies).run w = (none, w') := by
  have hread : ∀ path, ((access.read path).run w).2 = w := fun _ => rfl
  rcases run_cases hread a date with
    ⟨report', hrun', hexit'⟩ | ⟨settings', report', hload', hrun', hexit'⟩
  · rw [hrun'] at hrun
    cases hrun
    exact absurd hexit hexit'
  · rw [hrun'] at hrun
    cases hrun
    rw [hload'] at hload
    cases hload
    exact Prod.ext (hexit'.mp hexit) rfl

/-- A run that succeeds renders every policy, and leaves under each stem the text of the last policy with it. So all
texts are there just when no two policies with one stem have different ones. No other place changes. -/
theorem run_outputs_iff (hfiles : a.print = false) (hload : ((a.load access).run w).1 = .ok settings)
    (hrun : (a.run access date).run w = (report, w')) (hexit : report.exit = 0)
    (hapart : ∀ p ∈ a.policies, ∀ q ∈ a.policies, ∀ names text,
      w.tree.Writes (settings.on date) (a.outputDir.getD ".") q names text → w.tree.find p ≠ .ok names) :
    (∀ p ∈ a.policies, ∃ o, renderFile (settings.on date) p (w.tree.read p) = .ok o) ∧
    (∀ p ∈ a.policies, ∀ text, renderFile (settings.on date) p (w.tree.read p) = .ok (some text) →
      ∃ stem q text', Path.stem? p = some stem ∧
        w.tree.LastWith (settings.on date) a.policies stem q text' ∧
        w'.tree.read (Path.join (a.outputDir.getD ".") (stem ++ ".acl")) = .ok text') ∧
    ((∀ p ∈ a.policies, ∀ text, renderFile (settings.on date) p (w.tree.read p) = .ok (some text) →
        w'.tree.read (Path.output p (a.outputDir.getD ".")) = .ok text) ↔
      ∀ p ∈ a.policies, ∀ q ∈ a.policies, ∀ text text',
        renderFile (settings.on date) p (w.tree.read p) = .ok (some text) →
        renderFile (settings.on date) q (w.tree.read q) = .ok (some text') → Path.stem? p = Path.stem? q →
          text = text') ∧
    ∀ names, (∀ p ∈ a.policies, ∀ text,
        ¬w.tree.Writes (settings.on date) (a.outputDir.getD ".") p names text) →
      w'.tree.entry? names = w.tree.entry? names := by
  have hleaves := leaves_of_processAll hfiles (processAll_of_run hload hrun hexit) hapart
  exact ⟨hleaves.renders, fun p hp text htext => hleaves.exists_lastWith hp htext, hleaves.all_read_iff,
    hleaves.elsewhere⟩

def policyText (filter : String) : String := "[[[[[[\"cisco\",[\"" ++ filter ++ "\"]]]]]]]"

def filterText (filter : String) : String :=
  "\n".intercalate ["no ip access-list extended " ++ filter, "ip access-list extended " ++ filter, "remark $Id:$",
    " remark Filter type is extended", "", "exit", ""]

def twoPolicies (first second : String) : Workspace where
  tree := {
    entries := [(["a", first], .file (some (policyText "north"))), (["b", second], .file (some (policyText "south"))),
      (["out"], .directory)] }

def twoArguments (first second : String) : Arguments where
  policies := ["a/" ++ first, "b/" ++ second]
  outputDir := some "out"

/-- No policy of a directory is the output of one. -/
theorem twoPolicies_apart {first second : String} {config : Config}
    (h : ∀ p ∈ (twoArguments first second).policies, ∀ q ∈ (twoArguments first second).policies,
      (twoPolicies first second).tree.find p ≠ (twoPolicies first second).tree.find (Path.output q "out")) :
    ∀ p ∈ (twoArguments first second).policies, ∀ q ∈ (twoArguments first second).policies, ∀ names text,
      (twoPolicies first second).tree.Writes config "out" q names text →
        (twoPolicies first second).tree.find p ≠ .ok names :=
  fun p hp q hq _ _ hw hfind => h p hp q hq (hfind.trans hw.place.symm)

theorem renderFile_north : renderFile (({} : Settings).on .greatest) "a/edge.json" (.ok (policyText "north")) =
    .ok (some (filterText "north")) := by decide +kernel

theorem twoPolicies_read :
    (twoArguments "edge.json" "core.json").print = false ∧
      (((twoArguments "edge.json" "core.json").load access).run (twoPolicies "edge.json" "core.json")).1 = .ok {} ∧
      ∃ w', ((twoArguments "edge.json" "core.json").run access .greatest).run (twoPolicies "edge.json" "core.json") =
          ({ exit := 0 }, w') ∧
        w'.tree.read "out/edge.acl" = .ok (filterText "north") ∧
        w'.tree.read "out/core.acl" = .ok (filterText "south") := by
  let a := twoArguments "edge.json" "core.json"
  let w := twoPolicies "edge.json" "core.json"
  have hload : ((a.load access).run w).1 = .ok {} := rfl
  have hexit : ((a.run access .greatest).run w).1 = { exit := 0 } := by decide +kernel
  obtain ⟨w', hrun⟩ : ∃ w', (a.run access .greatest).run w = ({ exit := 0 }, w') := ⟨_, Prod.ext hexit rfl⟩
  have hread : w.tree.read "a/edge.json" = .ok (policyText "north") := by decide +kernel
  have hsouth : renderFile (({} : Settings).on .greatest) "b/core.json" (w.tree.read "b/core.json") =
      .ok (some (filterText "south")) := by decide +kernel
  have hstems : ∀ p ∈ a.policies, ∀ q ∈ a.policies, Path.stem? p = Path.stem? q → p = q := by decide +kernel
  obtain ⟨-, -, hiff, -⟩ := run_outputs_iff rfl hload hrun rfl (twoPolicies_apart (by decide +kernel))
  have hall := hiff.mpr fun p hp q hq text text' htext htext' hstem => by
    rw [hstems p hp q hq hstem, htext'] at htext
    cases htext
    rfl
  have hedge : Path.output "a/edge.json" "out" = "out/edge.acl" := by decide +kernel
  have hcore : Path.output "b/core.json" "out" = "out/core.acl" := by decide +kernel
  refine ⟨rfl, hload, w', hrun, ?_, ?_⟩
  · have hnorth : renderFile (({} : Settings).on .greatest) "a/edge.json" (w.tree.read "a/edge.json") =
        .ok (some (filterText "north")) := by rw [hread, renderFile_north]
    exact hedge ▸ hall "a/edge.json" (by decide) _ hnorth
  · exact hcore ▸ hall "b/core.json" (by decide) _ hsouth

/-- Of two policies with one stem, the second is written over the first. -/
theorem twoPolicies_overwritten :
    (∀ p ∈ (twoArguments "edge.json" "edge.json").policies,
      ∀ q ∈ (twoArguments "edge.json" "edge.json").policies,
        (twoPolicies "edge.json" "edge.json").tree.find p ≠
          (twoPolicies "edge.json" "edge.json").tree.find (Path.output q "out")) ∧
      renderFile (({} : Settings).on .greatest) "a/edge.json"
          ((twoPolicies "edge.json" "edge.json").tree.read "a/edge.json") = .ok (some (filterText "north")) ∧
      ∃ w', ((twoArguments "edge.json" "edge.json").run access .greatest).run (twoPolicies "edge.json" "edge.json") =
          ({ exit := 0 }, w') ∧
        w'.tree.read (Path.output "a/edge.json" "out") = .ok (filterText "south") ∧
        filterText "north" ≠ filterText "south" := by
  let a := twoArguments "edge.json" "edge.json"
  let w := twoPolicies "edge.json" "edge.json"
  have hread : w.tree.read "a/edge.json" = .ok (policyText "north") := by decide +kernel
  have hends : ((a.run access .greatest).run w).1 = { exit := 0 } ∧
      ((a.run access .greatest).run w).2.tree.read (Path.output "a/edge.json" "out") = .ok (filterText "south") := by
    decide +kernel
  obtain ⟨w', hrun, hover⟩ : ∃ w', (a.run access .greatest).run w = ({ exit := 0 }, w') ∧
      w'.tree.read (Path.output "a/edge.json" "out") = .ok (filterText "south") := ⟨_, Prod.ext hends.1 rfl, hends.2⟩
  refine ⟨by decide +kernel, ?_, w', hrun, hover, by decide +kernel⟩
  rw [hread, renderFile_north]

end Workspace

end AccessList
