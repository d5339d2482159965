import TypedRoutes.Proofs.CommandLine.Run
import TypedRoutes.Proofs.Document.Source
import TypedRoutes.Proofs.FileTree.Beside

/-!
# The two commands agree

A contract has one module, wherever it comes from. If the server of a `sync` answers with the text
that the file of a `generate` holds, and both have the same options on the output, then they deliver
the same module or none (`Task.delivers_iff_of_fetches`, `Task.delivers_iff_of_opens`). Among files
that differ in nothing but the contract, both write the same bytes, or neither changes a file
(`run_sync_agrees_run_generate`).
-/

set_option autoImplicit false

namespace TypedRoutes

/-- The source of a document is only needed for errors. -/
theorem Rendering.ofDocument_eq_ok_iff {doc : Document} {mount source : Option String}
    {rendering : Rendering} :
    ofDocument doc mount source = .ok rendering ↔
      Contract.ofDocument doc = .ok rendering.contract ∧
        Artifact.ofContract rendering.contract mount = .ok rendering.artifact := by
  constructor
  · intro h
    obtain ⟨contract, hcontract, h⟩ := Outcome.bind_eq_ok.1 h
    obtain ⟨artifact, hartifact, h⟩ := Outcome.bind_eq_ok.1 h
    obtain rfl := Except.ok.inj h
    exact ⟨Outcome.mapError_eq_ok.1 hcontract, Outcome.mapError_eq_ok.1 hartifact⟩
  · rintro ⟨hcontract, hartifact⟩
    exact Outcome.bind_eq_ok.2 ⟨_, Outcome.mapError_eq_ok.2 hcontract,
      Outcome.bind_eq_ok.2 ⟨_, Outcome.mapError_eq_ok.2 hartifact, rfl⟩⟩

/-- The text is a contract, with its module below a mount point. -/
def Rendering.IsOf (limits : Limits) (text : String) (mount : Option String)
    (rendering : Rendering) : Prop :=
  ∃ doc : Document, doc.IsReadFrom limits text ∧ Contract.ofDocument doc = .ok rendering.contract ∧
    Artifact.ofContract rendering.contract mount = .ok rendering.artifact

namespace CommandLine

/-- The task is a `sync`, and the server answers its request with a text and no failure. -/
inductive Task.Fetches (server : Server) (output : OutputOptions) (text : String) : Task → Prop
  | sync {options : SyncOptions} {request : Request} {status : Int} {reason : Option String} :
      options.toOutputOptions = output →
        Request.forContract options.base options.endpoint (options.timeout.map Seconds.fraction)
            RetryPolicy.defaultLimit = .ok request →
          server request = .answered status reason text → Reply.isFailure status = false →
            Fetches server output text (.sync options)

/-- The task is a `generate`, and its contract file holds a text and is not named like a YAML
file. -/
inductive Task.Opens (files : FileTree) (output : OutputOptions) (contract : FilePath)
    (text : String) : Task → Prop
  | generate {options : GenerateOptions} :
      options.toOutputOptions = output → options.contract = some contract →
        contract.isYaml = false → files.read contract = .ok (Text.Utf8.encode text) →
          Opens files output contract text (.generate options)

variable {limits : Limits} {server : Server} {files : FileTree} {output : OutputOptions}
  {text : String}

theorem Task.Fetches.isCommand {task : Task} (h : task.Fetches server output text) :
    task.isCommand = true := by
  cases h
  rfl

theorem Task.Opens.isCommand {task : Task} {contract : FilePath}
    (h : task.Opens files output contract text) : task.isCommand = true := by
  cases h
  rfl

/-- What a `sync` delivers. -/
theorem Task.delivers_iff_of_fetches {task : Task} (h : task.Fetches server output text)
    {out : FilePath} {rendering : Rendering} :
    task.Delivers limits server files out rendering ↔
      output.out = some out ∧ rendering.IsOf limits text output.mount := by
  cases h with
  | @sync options request status reason hoptions hrequest hanswer hstatus =>
    subst hoptions
    have hfetch (doc : Document) :
        Document.fetch limits server request = .ok doc ↔ doc.IsReadFrom limits text := by
      rw [Document.fetch, hanswer]
      exact Reply.document_eq_ok_iff hstatus
    constructor
    · rintro ⟨hout, hrequest', hdoc, hrendering⟩
      obtain rfl := Except.ok.inj (hrequest.symm.trans hrequest')
      exact ⟨hout, _, (hfetch _).1 hdoc, Rendering.ofDocument_eq_ok_iff.1 hrendering⟩
    · rintro ⟨hout, doc, hdoc, hrendering⟩
      exact .sync hout hrequest ((hfetch _).2 hdoc) (Rendering.ofDocument_eq_ok_iff.2 hrendering)

/-- What a `generate` delivers. -/
theorem Task.delivers_iff_of_opens {task : Task} {contract : FilePath}
    (h : task.Opens files output contract text) {out : FilePath} {rendering : Rendering} :
    task.Delivers limits server files out rendering ↔
      output.out = some out ∧ rendering.IsOf limits text output.mount := by
  obtain ⟨rfl, hcontract, hyaml, hread⟩ := h
  have hfile (doc : Document) :
      Document.ofFile limits contract (files.read contract) = .ok doc ↔
        doc.IsReadFrom limits text := by
    rw [hread]
    exact Document.ofFile_eq_ok_iff hyaml
  constructor
  · rintro (- | ⟨hout, hcontract', hdoc, hrendering⟩)
    obtain rfl := Option.some.inj (hcontract.symm.trans hcontract')
    exact ⟨hout, _, (hfile _).1 hdoc, Rendering.ofDocument_eq_ok_iff.1 hrendering⟩
  · rintro ⟨hout, doc, hdoc, hrendering⟩
    exact .generate hout hcontract ((hfile _).2 hdoc) (Rendering.ofDocument_eq_ok_iff.2 hrendering)

/-- A `sync` of a text and a `generate` from a file that holds it, with the same options on the
output and among files that differ in the contract alone, put the same bytes in the place for the
module, or neither of them is completed and all files are as before. The place is apart from the
contract. -/
theorem run_sync_agrees_run_generate (limits : Limits) {program program' : Program}
    {arguments arguments' : List String} {server : Server} {files files' : FileTree}
    {output : OutputOptions} {contract : FilePath} {text : String} (server' : Server)
    (hfetches : (Task.ofArguments program arguments).Fetches server output text)
    (hopens : (Task.ofArguments program' arguments').Opens files' output contract text)
    (hfiles : files.AgreesBeside contract.location files')
    (hout : ∀ out, output.out = some out → out.IsApartFrom contract.location) :
    let outcome := run limits program arguments server files
    let outcome' := run limits program' arguments' server' files'
    (∃ out bytes, output.out = some out ∧ outcome.ending = .ok 0 ∧ outcome'.ending = .ok 0 ∧
        files.HasWritten out bytes outcome.files ∧ files'.HasWritten out bytes outcome'.files) ∨
      outcome.ending ≠ .ok 0 ∧ outcome'.ending ≠ .ok 0 ∧
        outcome.files.files = files.files ∧ outcome'.files.files = files'.files := by
  intro outcome outcome'
  -- Both deliver the same, and where the one can put it the other can.
  have hdelivers (out : FilePath) (rendering : Rendering) :
      (Task.ofArguments program arguments).Delivers limits server files out rendering ∧
          files.CanHold out ↔
        (Task.ofArguments program' arguments').Delivers limits server' files' out rendering ∧
          files'.CanHold out := by
    rw [Task.delivers_iff_of_fetches hfetches, Task.delivers_iff_of_opens hopens]
    exact and_congr_right fun h => hfiles.canHold_iff (hout out h.1)
  cases run_spec limits program arguments server files with
  | completed hsync hcan hending hwritten =>
    obtain ⟨hgenerate, hcan'⟩ := (hdelivers _ _).1 ⟨hsync, hcan⟩
    cases run_spec limits program' arguments' server' files' with
    | completed hgenerate' _ hending' hwritten' =>
      obtain ⟨rfl, rfl⟩ := hgenerate.unique hgenerate'
      exact .inl ⟨_, _, ((Task.delivers_iff_of_opens hopens).1 hgenerate).1, hending, hending',
        hwritten, hwritten'⟩
    | stopped hnone _ _ => exact absurd hcan' (hnone _ _ hgenerate)
  | stopped hnone hending hunchanged =>
    cases run_spec limits program' arguments' server' files' with
    | completed hgenerate hcan' _ _ =>
      obtain ⟨hsync, hcan⟩ := (hdelivers _ _).2 ⟨hgenerate, hcan'⟩
      exact absurd hcan (hnone _ _ hsync)
    | stopped _ hending' hunchanged' =>
      exact .inr ⟨hending hfetches.isCommand, hending' hopens.isCommand, hunchanged, hunchanged'⟩

/-- An object without routes, on two lines that end in different ways. -/
def emptyContract : String := "\x7b\r\n\x7d\r"

/-- The options on the output that are given to both commands. -/
def outputArguments : List String := ["--out", "o.ts", "--strip-prefix", "/api"]

def syncArguments : List String := ["sync", "--url", "http://h"] ++ outputArguments

def generateArguments : List String := ["generate", "--contract", "c.json"] ++ outputArguments

/-- A directory with nothing but the contract. -/
def emptyContractTree : FileTree :=
  ⟨[(⟨.working 0, ["c.json"]⟩, Text.Utf8.encode emptyContract)], []⟩

theorem agreesBeside_emptyContractTree :
    FileTree.empty.AgreesBeside ⟨.working 0, ["c.json"]⟩ emptyContractTree where
  content k hk := by
    rw [FileTree.content?, FileTree.content?, emptyContractTree, List.lookup_cons,
      beq_eq_false_iff_ne.2 hk]
    rfl
  isDirectory _ _ _ := rfl
  above _ _ := rfl

theorem isApartFrom_contract : (FilePath.ofText "o.ts").IsApartFrom ⟨.working 0, ["c.json"]⟩ where
  location := by decide +kernel
  passed := by decide +kernel
  above := by
    rintro ⟨-, hnames, -⟩
    revert hnames
    decide +kernel

/-- The two commands read the lines of the contract with different ends, and write the same. -/
theorem run_sync_agrees_run_generate_lineEnds :
    let server : Server := fun _ => .answered 200 (some "OK") emptyContract
    ∃ bytes,
      FileTree.empty.HasWritten (.ofText "o.ts") bytes
          (run .usual .toolkit syncArguments server .empty).files ∧
        emptyContractTree.HasWritten (.ofText "o.ts") bytes
          (run .usual .toolkit generateArguments server emptyContractTree).files := by
  intro server
  have hsync : Task.ofArguments .toolkit syncArguments =
      .sync ⟨⟨some (.ofText "o.ts"), some "/api"⟩, some "http://h", some defaultEndpoint,
        some SyncOptions.defaultTimeout⟩ := by decide +kernel
  have hgenerate : Task.ofArguments .toolkit generateArguments =
      .generate ⟨⟨some (.ofText "o.ts"), some "/api"⟩, some (.ofText "c.json")⟩ := by
    decide +kernel
  -- The address has no path, so the one for contracts is put behind it.
  have hrequest : Request.forContract (some "http://h") (some defaultEndpoint)
      (some (.fraction SyncOptions.defaultTimeout)) RetryPolicy.defaultLimit =
        .ok ⟨some "http://h/__contract__", some (.fraction SyncOptions.defaultTimeout),
          .upTo RetryPolicy.defaultLimit⟩ := by decide +kernel
  have hfetches : (Task.ofArguments .toolkit syncArguments).Fetches server
      ⟨some (.ofText "o.ts"), some "/api"⟩ emptyContract := by
    rw [hsync]
    exact .sync rfl hrequest rfl (by decide)
  have hopens : (Task.ofArguments .toolkit generateArguments).Opens emptyContractTree
      ⟨some (.ofText "o.ts"), some "/api"⟩ (.ofText "c.json") emptyContract := by
    rw [hgenerate]
    exact .generate rfl rfl (by decide +kernel) (by decide +kernel)
  have hlocation : (FilePath.ofText "c.json").location = ⟨.working 0, ["c.json"]⟩ := by
    decide +kernel
  have hapart : ∀ out, some (FilePath.ofText "o.ts") = some out →
      out.IsApartFrom (FilePath.ofText "c.json").location := by
    intro out hout
    rw [← Option.some.inj hout, hlocation]
    exact isApartFrom_contract
  have hending : (run .usual .toolkit syncArguments server .empty).ending = .ok 0 := by
    decide +kernel
  rcases run_sync_agrees_run_generate .usual server hfetches hopens
    (hlocation ▸ agreesBeside_emptyContractTree) hapart with
    ⟨out, bytes, hout, -, -, hwritten, hwritten'⟩ | ⟨hfailed, -⟩
  · rw [← Option.some.inj hout] at hwritten hwritten'
    exact ⟨bytes, hwritten, hwritten'⟩
  · exact absurd hending hfailed

end CommandLine
end TypedRoutes
