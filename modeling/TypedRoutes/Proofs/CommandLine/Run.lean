import TypedRoutes.CommandLine.Run
import TypedRoutes.Proofs.FileTree.Publish
import TypedRoutes.Proofs.Outcome

/-!
# Runs

What a run does to the files. `Task.Delivers` says what a command has to write, and where: the
module of the document that the server gives, or that the contract file holds before the run. A
command that delivers nothing changes no file, and one that delivers is completed if the place can
hold a file (`run_spec`). So a run writes the finished module, and to no other place, or nothing
(`run_writes_artifact_or_nothing`).
-/

set_option autoImplicit false

namespace TypedRoutes.CommandLine

/-! ## What a command delivers -/

/-- Is the task one of the two commands? -/
def Task.isCommand : Task → Bool
  | .notice _ => false
  | .sync _ | .generate _ => true

/-- A command has a module to write, and a path to write it to. -/
inductive Task.Delivers (limits : Limits) (server : Server) (files : FileTree) :
    Task → FilePath → Rendering → Prop
  | sync {options : SyncOptions} {out : FilePath} {request : Request} {doc : Document}
      {rendering : Rendering} :
      options.out = some out →
        Request.forContract options.base options.endpoint (options.timeout.map Seconds.fraction)
            RetryPolicy.defaultLimit = .ok request →
          Document.fetch limits server request = .ok doc →
            Rendering.ofDocument doc options.mount request.url = .ok rendering →
              Delivers limits server files (.sync options) out rendering
  | generate {options : GenerateOptions} {out contract : FilePath} {doc : Document}
      {rendering : Rendering} :
      options.out = some out → options.contract = some contract →
        Document.ofFile limits contract (files.read contract) = .ok doc →
          Rendering.ofDocument doc options.mount (some contract.text) = .ok rendering →
            Delivers limits server files (.generate options) out rendering

variable {limits : Limits} {server : Server} {files : FileTree} {task : Task}

theorem Task.Delivers.isCommand {out : FilePath} {rendering : Rendering}
    (h : task.Delivers limits server files out rendering) : task.isCommand = true := by
  cases h <;> rfl

/-- A task delivers at most one rendering, and to one place. -/
theorem Task.Delivers.unique {out out' : FilePath} {rendering rendering' : Rendering}
    (h : task.Delivers limits server files out rendering)
    (h' : task.Delivers limits server files out' rendering') :
    out = out' ∧ rendering = rendering' := by
  cases h with
  | sync hout hrequest hdoc hrendering =>
    obtain ⟨hout', hrequest', hdoc', hrendering'⟩ := h'
    obtain rfl := Except.ok.inj (hrequest.symm.trans hrequest')
    obtain rfl := Except.ok.inj (hdoc.symm.trans hdoc')
    exact ⟨Option.some.inj (hout.symm.trans hout'),
      Except.ok.inj (hrendering.symm.trans hrendering')⟩
  | generate hout hcontract hdoc hrendering =>
    obtain - | ⟨hout', hcontract', hdoc', hrendering'⟩ := h'
    obtain rfl := Option.some.inj (hcontract.symm.trans hcontract')
    obtain rfl := Except.ok.inj (hdoc.symm.trans hdoc')
    exact ⟨Option.some.inj (hout.symm.trans hout'),
      Except.ok.inj (hrendering.symm.trans hrendering')⟩

/-! ## Drafts -/

/-- What the draft of a task comes to: the delivery is to be written; without one a command ends
without success. -/
inductive Task.ComesTo (limits : Limits) (server : Server) (files : FileTree) (task : Task) :
    Verdict → Prop
  | write {out : FilePath} {rendering : Rendering} {report : String} :
      task.Delivers limits server files out rendering →
        ComesTo limits server files task (.write out rendering.artifact report)
  | exit {status : Nat} :
      (∀ out rendering, ¬ task.Delivers limits server files out rendering) →
        (task.isCommand = true → status ≠ 0) → ComesTo limits server files task (.exit status)
  | halt {cause : Halt} :
      (∀ out rendering, ¬ task.Delivers limits server files out rendering) →
        ComesTo limits server files task (.halt cause)

/-- A command that is halted delivers nothing. -/
theorem comesTo_ofHalt (h : ∀ out rendering, ¬ task.Delivers limits server files out rendering)
    (output label : String) (requests : List Request) (cause : Halt) :
    task.ComesTo limits server files (Draft.ofHalt output label requests cause).verdict := by
  cases cause with
  | reported error => exact .exit h fun _ => Nat.one_ne_zero
  | _ => exact .halt h

/-- A module that is rendered is delivered, if a place for it is given. -/
theorem comesTo_ofModule {place : Option FilePath} {rendering : Rendering}
    (h : ∀ out, place = some out → task.Delivers limits server files out rendering)
    (hnone : place = none → ∀ out rendering, ¬ task.Delivers limits server files out rendering)
    (report : FilePath → String) :
    task.ComesTo limits server files (.ofModule place rendering.artifact report) := by
  cases place with
  | none => exact .halt (hnone rfl)
  | some out => exact .write (h out rfl)

/-- The verdict of a fetching task says what it delivers, or why it ends without a rendering. -/
theorem comesTo_sync (options : SyncOptions) :
    (Task.sync options).ComesTo limits server files (Draft.sync limits options server).verdict := by
  unfold Draft.sync
  split
  · next fault hfault =>
    refine .halt ?_
    rintro out rendering ⟨-, hrequest, -, -⟩
    cases hfault.symm.trans hrequest
  · next request hrequest =>
    dsimp only
    split
    · next cause hcause =>
      refine comesTo_ofHalt ?_ _ _ _ _
      rintro out rendering ⟨-, hrequest', hdoc, hrendering⟩
      obtain rfl := Except.ok.inj (hrequest.symm.trans hrequest')
      rw [hdoc] at hcause
      cases hcause.symm.trans hrendering
    · next rendering hrendering =>
      obtain ⟨doc, hdoc, hrendering⟩ := Outcome.bind_eq_ok.1 hrendering
      refine comesTo_ofModule (fun out hout => ?_) ?_ _
      · exact .sync hout hrequest hdoc hrendering
      · rintro hnone out rendering ⟨hout, -, -, -⟩
        cases hnone.symm.trans hout

/-- The verdict of a generating task says what it delivers, or why it ends without a rendering. -/
theorem comesTo_generate (options : GenerateOptions) :
    (Task.generate options).ComesTo limits server files
      (Draft.generate limits options (options.contract.map files.read)).verdict := by
  unfold Draft.generate
  cases hcontract : options.contract with
  | none =>
    refine .halt ?_
    rintro out rendering (- | ⟨-, hsome, -, -⟩)
    cases hcontract.symm.trans hsome
  | some contract =>
    simp only [Option.map_some]
    split
    · next cause hcause =>
      refine comesTo_ofHalt ?_ _ _ _ _
      rintro out rendering (- | ⟨-, hsome, hdoc, hrendering⟩)
      obtain rfl := Option.some.inj (hcontract.symm.trans hsome)
      rw [hdoc] at hcause
      cases hcause.symm.trans hrendering
    · next rendering hrendering =>
      obtain ⟨doc, hdoc, hrendering⟩ := Outcome.bind_eq_ok.1 hrendering
      refine comesTo_ofModule (fun out hout => ?_) ?_ _
      · exact .generate hout hcontract hdoc hrendering
      · rintro hnone out rendering (- | ⟨hout, -, -, -⟩)
        cases hnone.symm.trans hout

/-- A draft comes to the delivery of its task. -/
theorem comesTo_draft (task : Task) :
    task.ComesTo limits server files (task.draft limits server files).verdict := by
  cases task with
  | notice shown => exact .exit (fun _ _ => nofun) nofun
  | sync options => exact comesTo_sync options
  | generate options => exact comesTo_generate options

/-! ## Runs -/

/-- What comes of a task among files: the delivery is written, or all files are as before. -/
inductive Task.EndsIn (limits : Limits) (server : Server) (files : FileTree) (task : Task)
    (outcome : Outcome) : Prop
  | completed {out : FilePath} {rendering : Rendering} :
      task.Delivers limits server files out rendering → files.CanHold out → outcome.ending = .ok 0 →
        files.HasWritten out (Text.Utf8.encode rendering.artifact) outcome.files →
          EndsIn limits server files task outcome
  | stopped :
      (∀ out rendering, task.Delivers limits server files out rendering → ¬ files.CanHold out) →
        (task.isCommand = true → outcome.ending ≠ .ok 0) →
          outcome.files.files = files.files → EndsIn limits server files task outcome

/-- A task that comes to a verdict ends as the verdict says: the rendering is published or nothing
is changed. -/
theorem endsIn_finish {draft : Draft} (h : task.ComesTo limits server files draft.verdict) :
    task.EndsIn limits server files (draft.finish files) := by
  obtain ⟨output, errors, requests, verdict⟩ := draft
  unfold Draft.finish
  cases h with
  | exit hnone hstatus =>
    exact .stopped (fun out rendering hdelivers => absurd hdelivers (hnone out rendering))
      (fun hcommand hending => hstatus hcommand (Except.ok.inj hending)) rfl
  | halt hnone =>
    exact .stopped (fun out rendering hdelivers => absurd hdelivers (hnone out rendering))
      (fun _ => nofun) rfl
  | @write out rendering report hdelivers =>
    have hpublish := FileTree.publish_spec files out (Text.Utf8.encode rendering.artifact)
    dsimp only
    split
    · next after hafter =>
      rw [hafter] at hpublish
      obtain ⟨hcan, hwritten⟩ := hpublish
      exact .completed hdelivers hcan rfl hwritten
    · next breach hbreach =>
      rw [hbreach] at hpublish
      obtain - | ⟨hcan, hfiles⟩ := hpublish
      refine .stopped (fun out' rendering' hdelivers' => ?_) (fun _ => nofun) hfiles
      -- There is one delivery, so what could not be published is all that there was.
      obtain ⟨rfl, -⟩ := hdelivers.unique hdelivers'
      exact hcan

/-- What comes of a run. -/
theorem run_spec (limits : Limits) (program : Program) (arguments : List String)
    (server : Server) (files : FileTree) :
    (Task.ofArguments program arguments).EndsIn limits server files
      (run limits program arguments server files) :=
  endsIn_finish (comesTo_draft _)

/-- Finishing a draft sends no further request. -/
theorem requests_finish (draft : Draft) (files : FileTree) :
    (draft.finish files).requests = draft.requests := by
  obtain ⟨output, errors, requests, verdict⟩ := draft
  cases verdict with
  | exit status => rfl
  | halt cause => rfl
  | write path artifact report =>
    simp only [Draft.finish]
    split
    · rfl
    · rfl

/-- Only `sync` makes a request, and not more than one. -/
theorem requests_draft (limits : Limits) (server : Server) (files : FileTree) (task : Task) :
    (task.draft limits server files).requests = [] ∨
      ∃ options request, task = .sync options ∧
        (task.draft limits server files).requests = [request] := by
  cases task with
  | notice shown => exact .inl rfl
  | sync options =>
    simp only [Task.draft, Draft.sync]
    split
    · exact .inl rfl
    · next request _ =>
      refine .inr ⟨options, request, rfl, ?_⟩
      split
      · exact Draft.requests_ofHalt _ _ _ _
      · rfl
  | generate options =>
    refine .inl ?_
    simp only [Task.draft, Draft.generate]
    split
    · split
      · exact Draft.requests_ofHalt _ _ _ _
      · rfl
    · rfl

/-- One of the two commands is carried out to its end. -/
def Completes (limits : Limits) (program : Program) (arguments : List String) (server : Server)
    (files : FileTree) : Prop :=
  (Task.ofArguments program arguments).isCommand = true ∧
    (run limits program arguments server files).ending = .ok 0

/-- A run that completes a command leaves the finished module where the options say, and all other
files as they were. Any other run leaves all files as they were. At most one request is made, and
only by `sync`. -/
theorem run_writes_artifact_or_nothing (limits : Limits) (program : Program)
    (arguments : List String) (server : Server) (files : FileTree) :
    let task := Task.ofArguments program arguments
    let outcome := run limits program arguments server files
    ((Completes limits program arguments server files ∧
        ∃ out rendering, task.Delivers limits server files out rendering ∧
          files.HasWritten out (Text.Utf8.encode rendering.artifact) outcome.files) ∨
      ¬ Completes limits program arguments server files ∧ outcome.files.files = files.files) ∧
    (outcome.requests = [] ∨
      ∃ options request, task = .sync options ∧ outcome.requests = [request]) := by
  intro task outcome
  have hrequests := requests_draft limits server files task
  rw [← requests_finish _ files] at hrequests
  refine ⟨?_, hrequests⟩
  cases run_spec limits program arguments server files with
  | completed hdelivers _ hending hwritten =>
    exact .inl ⟨⟨hdelivers.isCommand, hending⟩, _, _, hdelivers, hwritten⟩
  | stopped _ hending hfiles => exact .inr ⟨fun h => hending h.1 h.2, hfiles⟩

/-- Arguments that name the contract file as the place for the module. -/
def inPlaceArguments : List String := ["generate", "--contract", "c.json", "--out", "c.json"]

/-- A directory with a contract that has no routes. -/
def contractTree : FileTree := ⟨[(⟨.working 0, ["c.json"]⟩, Text.Utf8.encode "\x7b\x7d")], []⟩

/-- The module takes the place of the contract that it is rendered from. -/
theorem run_writes_artifact_or_nothing_inPlace :
    let server : Server := fun _ => .failed ""
    ∃ rendering,
      (Task.ofArguments .toolkit inPlaceArguments).Delivers .usual server contractTree
          (.ofText "c.json") rendering ∧
        contractTree.HasWritten (.ofText "c.json") (Text.Utf8.encode rendering.artifact)
          (run .usual .toolkit inPlaceArguments server contractTree).files := by
  intro server
  have htask : Task.ofArguments .toolkit inPlaceArguments =
      .generate ⟨⟨some (.ofText "c.json"), none⟩, some (.ofText "c.json")⟩ := by decide +kernel
  have hending : (run .usual .toolkit inPlaceArguments server contractTree).ending = .ok 0 := by
    decide +kernel
  obtain ⟨⟨-, out, rendering, hdelivers, hwritten⟩ | ⟨hnot, -⟩, -⟩ :=
    run_writes_artifact_or_nothing .usual .toolkit inPlaceArguments server contractTree
  · have hout : .ofText "c.json" = out := by
      rw [htask] at hdelivers
      obtain - | ⟨hout, -, -, -⟩ := hdelivers
      exact Option.some.inj hout
    subst hout
    exact ⟨rendering, hdelivers, hwritten⟩
  · exact absurd ⟨by rw [htask]; rfl, hending⟩ hnot

end TypedRoutes.CommandLine
