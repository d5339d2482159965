import TypedRoutes.CommandLine.Run
import TypedRoutes.Proofs.Document.OfFile

/-!
# Loading contracts

How `generate` ends if it cannot load its contract file. What is reported of the file is shown, and
the status is one. What escapes ends the run without a status, and nothing is shown. In either case
nothing is asked of the server and no file is changed (`load_reports_or_escapes`).
-/

set_option autoImplicit false

namespace TypedRoutes.CommandLine

open Document (Reports Escapes)

variable {limits : Limits} {program : Program} {arguments : List String} {files : FileTree}
  {path : FilePath} {options : GenerateOptions} {halt : Halt}

/-- A run whose contract cannot be loaded is over then. -/
theorem run_of_ofFile_eq_error (htask : Task.ofArguments program arguments = .generate options)
    (hcontract : options.contract = some path)
    (h : Document.ofFile limits path (files.read path) = .error halt) (server : Server) :
    run limits program arguments server files =
      (Draft.ofHalt "" "Failed to generate types" [] halt).finish files := by
  rw [run, htask, Task.draft, hcontract, Option.map_some]
  unfold Draft.generate
  rw [hcontract]
  dsimp only
  rw [h, Outcome.error_bind]

theorem finish_ofHalt (hhalt : ∀ error, halt ≠ .reported error) (output label : String)
    (requests : List Request) (files : FileTree) :
    (Draft.ofHalt output label requests halt).finish files =
      ⟨.error halt, output, "", requests, files⟩ := by
  cases halt with
  | reported error => exact absurd rfl (hhalt error)
  | _ => rfl

/-- What is loaded from a file is a mapping. If nothing is, then either there is an error of the
contract, which `Reports` describes and which has the path as its source, or what `Escapes`
describes. `generate` shows the error and ends with status one, and it halts on what escapes. -/
theorem load_reports_or_escapes (limits : Limits) (files : FileTree) (path : FilePath) :
    (∀ doc, Document.ofFile limits path (files.read path) = .ok doc → doc.isMapping = true) ∧
    (∀ error, Document.ofFile limits path (files.read path) = .error (.reported error) ↔
      ∃ detail, Reports limits files path detail ∧ error = .general detail (some path.text)) ∧
    (∀ halt, (Document.ofFile limits path (files.read path) = .error halt ∧
        ∀ error, halt ≠ .reported error) ↔ Escapes limits files path halt) ∧
    ∀ program arguments options, Task.ofArguments program arguments = .generate options →
      options.contract = some path → ∀ server,
        (∀ detail, Reports limits files path detail → run limits program arguments server files =
          ⟨.ok 1, "", "Failed to generate types: " ++
            (ContractError.general detail (some path.text)).message ++ "\n", [], files⟩) ∧
        ∀ halt, Escapes limits files path halt → run limits program arguments server files =
          ⟨.error halt, "", "", [], files⟩ := by
  refine ⟨fun doc hdoc => Document.isMapping_of_ofFile hdoc, fun error => ?_, fun halt => ?_, ?_⟩
  -- A failure is reported or escapes, and no escape is a report.
  · rw [Document.ofFile_eq_error_iff]
    constructor
    · rintro (hreports | hescapes)
      · exact ⟨_, hreports, rfl⟩
      · exact absurd rfl (hescapes.ne_reported error)
    · rintro ⟨detail, hreports, rfl⟩
      exact .reported hreports
  · rw [Document.ofFile_eq_error_iff]
    constructor
    · rintro ⟨hreports | hescapes, hhalt⟩
      · exact absurd rfl (hhalt _)
      · exact hescapes
    · intro hescapes
      exact ⟨.escaped hescapes, hescapes.ne_reported⟩
  · intro program arguments options htask hcontract server
    constructor
    · intro detail hreports
      rw [run_of_ofFile_eq_error htask hcontract (Document.ofFile_of_reports hreports)]
      rfl
    · intro halt hescapes
      rw [run_of_ofFile_eq_error htask hcontract (Document.ofFile_of_escapes hescapes)]
      exact finish_ofHalt hescapes.ne_reported _ _ _ _

/-- Arguments that name a contract file. -/
def loadingArguments : List String := ["generate", "--contract", "c.json"]

/-- A directory with a contract that is no text. -/
def undecodableTree : FileTree := ⟨[(⟨.working 0, ["c.json"]⟩, [0xFF])], []⟩

/-- Its byte begins no character. -/
def undecodableByte : Text.Utf8.Misfit := ⟨.startByte, [0xFF], 0⟩

/-- A contract that is not there is reported, and one that is no text escapes. -/
theorem load_reports_or_escapes_undecodable :
    let server : Server := fun _ => .failed ""
    run .usual .toolkit loadingArguments server .empty =
        ⟨.ok 1, "", "Failed to generate types: [c.json] Failed to read contract file: " ++
          "[Errno 2] No such file or directory: 'c.json'\n", [], .empty⟩ ∧
      run .usual .toolkit loadingArguments server undecodableTree =
        ⟨.error (.encoding undecodableByte), "", "", [], undecodableTree⟩ := by
  intro server
  have htask : Task.ofArguments .toolkit loadingArguments =
      .generate ⟨⟨some defaultOutput, none⟩, some (.ofText "c.json")⟩ := by decide +kernel
  constructor
  · have hread : FileTree.empty.read (.ofText "c.json") =
        .error ⟨.missing, .ofText "c.json"⟩ := by decide +kernel
    have hreports : Reports .usual .empty (.ofText "c.json") _ :=
      .unreadable (by decide +kernel) hread
    obtain ⟨-, -, -, hrun⟩ := load_reports_or_escapes .usual .empty (.ofText "c.json")
    exact (hrun _ _ _ htask rfl server).1 _ hreports
  · have hread : undecodableTree.read (.ofText "c.json") = .ok [0xFF] := by decide +kernel
    have hmisfit : Text.Utf8.read [0xFF] = .error undecodableByte := by decide +kernel
    have hescapes : Escapes .usual undecodableTree (.ofText "c.json") _ :=
      .encoding hread (Text.Utf8.exists_read_eq_error_iff.1 ⟨_, hmisfit⟩) hmisfit
    obtain ⟨-, -, -, hrun⟩ := load_reports_or_escapes .usual undecodableTree (.ofText "c.json")
    exact (hrun _ _ _ htask rfl server).2 _ hescapes

/-- A contract that is no text is not reported. -/
theorem load_escapes_undecodable :
    ¬ ∀ (files : FileTree) (path : FilePath),
      (∃ doc, Document.ofFile .usual path (files.read path) = .ok doc) ∨
        ∃ detail, Document.ofFile .usual path (files.read path) =
          .error (.reported (.general detail (some path.text))) := by
  intro h
  -- The byte is found but is no text, so the bytes are refused before anything is parsed.
  have hread : undecodableTree.read (.ofText "c.json") = .ok [0xFF] := by decide +kernel
  have hmisfit : Text.Utf8.read [0xFF] = .error undecodableByte := by decide +kernel
  rcases h undecodableTree (.ofText "c.json") with ⟨doc, hdoc⟩ | ⟨detail, hdetail⟩
  · rw [hread, Document.ofFile, Document.fileText, hmisfit] at hdoc
    cases hdoc
  · rw [hread, Document.ofFile, Document.fileText, hmisfit] at hdetail
    cases hdetail

end TypedRoutes.CommandLine
