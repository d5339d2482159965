import TypedRoutes.Proofs.Document.Source
import TypedRoutes.Proofs.FileTree.Path
import TypedRoutes.Proofs.Json.Stop
import TypedRoutes.Proofs.Text.Newline
import TypedRoutes.Proofs.Text.Utf8Exact
import TypedRoutes.Proofs.Yaml.Document

/-!
# Documents of files

A document that is loaded from a file is a mapping. Of the files that hold none, most are reported
as errors of the contract, with the path as the source: `Document.Reports` lists what is said of
them. The others end the loading without being reported: `Document.Escapes` lists these. Whatever is
on the lists fails so, and nothing else fails (`Document.ofFile_eq_error_iff`).
-/

set_option autoImplicit false

namespace TypedRoutes.Document

/-- A text with a line feed for every end of a line. -/
def withLineFeeds (raw : String) : String := String.ofList (Text.unifyNewlines raw.toList)

/-- A word that ends no line stands in the text if it does once its lines end in line feeds. -/
theorem infix_of_infix_withLineFeeds {word : List Char} {raw : String}
    (hword : ∀ c ∈ word, Text.isNewline c = false) (h : word <:+: (withLineFeeds raw).toList) :
    word <:+: raw.toList :=
  Text.infix_of_infix_unifyNewlines hword (by rwa [withLineFeeds, String.toList_ofList] at h)

/-- Characters that end no line are as many as before. -/
theorem countP_withLineFeeds {p : Char → Bool} (hlineFeed : p '\n' ≠ true)
    (hreturn : p '\r' ≠ true) (raw : String) :
    (withLineFeeds raw).toList.countP p = raw.toList.countP p := by
  rw [withLineFeeds, String.toList_ofList, Text.countP_unifyNewlines hlineFeed hreturn]

/-- The text is a document in the format that the path asks for. -/
inductive IsWrittenIn (limits : Limits) (path : FilePath) (text : String) : Document → Prop
  | yaml {doc : Document} :
      path.isYaml = true → ofYaml limits text = .ok doc → IsWrittenIn limits path text doc
  | json {j : Json} :
      path.isYaml = false → Json.parseWithin limits.json text = .ok j →
        IsWrittenIn limits path text (ofJson j)

section

variable (limits : Limits) (files : FileTree) (path : FilePath)

/-- What is said of a file without a contract, where that is an error of the contract. -/
inductive Reports : String → Prop
  | unreadable {fault : FileFault} :
      path.text.toList.contains '\x00' = false → files.read path = .error fault →
        Reports ("Failed to read contract file: " ++ fault.message)
  | malformedYaml {raw : String} :
      path.isYaml = true → files.read path = .ok (Text.Utf8.encode raw) →
        ofYaml limits (withLineFeeds raw) = .error .malformed →
          Reports ("Invalid contract document: " ++ Yaml.Fault.malformed.message)
  | malformedJson {raw : String} {fault : Json.SyntaxFault} {place : Json.Place} :
      path.isYaml = false → files.read path = .ok (Text.Utf8.encode raw) →
        Json.parseWithin limits.json (withLineFeeds raw) = .error (.malformed fault place) →
          Reports ("Invalid contract document: " ++ (Json.ParseError.malformed fault place).message)
  | noMapping {raw : String} {doc : Document} :
      files.read path = .ok (Text.Utf8.encode raw) →
        IsWrittenIn limits path (withLineFeeds raw) doc → doc.isMapping = false →
          Reports "Contract root must be a mapping"

/-- What ends the loading of a file without being an error of the contract. -/
inductive Escapes : Halt → Prop
  | nullCharacter :
      path.text.toList.contains '\x00' = true → Escapes (.file ⟨.nullCharacter, path⟩)
  | encoding {bytes : List UInt8} {misfit : Text.Utf8.Misfit} :
      files.read path = .ok bytes → (∀ raw, Text.Utf8.encode raw ≠ bytes) →
        Text.Utf8.read bytes = .error misfit → Escapes (.encoding misfit)
  | digits {raw : String} {run : List Char} :
      path.isYaml = false → files.read path = .ok (Text.Utf8.encode raw) → run <:+: raw.toList →
        IsDigits run → digitLimit < run.length →
          Json.parseWithin limits.json (withLineFeeds raw) =
            .error (.digits (.reading run.length)) → Escapes (.digits (.reading run.length))
  | nesting {raw : String} {opened : Json.Enclosure} :
      path.isYaml = false → files.read path = .ok (Text.Utf8.encode raw) →
        limits.json < raw.toList.countP Json.Reader.isOpening →
          Json.parseWithin limits.json (withLineFeeds raw) = .error (.nesting opened) →
            Escapes (.nesting opened)
  | unpaired {raw : String} {digits : List Char} {half : Nat} :
      path.isYaml = false → files.read path = .ok (Text.Utf8.encode raw) →
        '\\' :: 'u' :: digits <:+: raw.toList → Text.hexNumber? digits = some half →
          Json.Reader.isHalf half = true →
            Json.parseWithin limits.json (withLineFeeds raw) = .error (.unpaired half) →
              Escapes (.unpaired half)
  | yaml {raw : String} {fault : Yaml.Fault} :
      path.isYaml = true → files.read path = .ok (Text.Utf8.encode raw) →
        ofYaml limits (withLineFeeds raw) = .error fault → fault ≠ .malformed → fault.Arises →
          Escapes (.yaml fault)

/-- Why there is no document of a file. -/
inductive Fails : Halt → Prop
  | reported {detail : String} :
      Reports limits files path detail → Fails (.reported (.general detail path.text))
  | escaped {halt : Halt} : Escapes limits files path halt → Fails halt

end

variable {limits : Limits} {files : FileTree} {path : FilePath} {raw : String} {halt : Halt}

/-- A text is a document exactly when it is written in the format that its path asks for. -/
theorem ofText_eq_ok_iff_isWrittenIn {text : String} {doc : Document} :
    ofText limits path text = .ok doc ↔ IsWrittenIn limits path text doc := by
  constructor
  · intro h
    cases hpath : path.isYaml with
    | true =>
      rw [ofText, if_pos hpath] at h
      split at h
      · next hdoc =>
        obtain rfl := Except.ok.inj h
        exact .yaml hpath hdoc
      · cases h
      · cases h
    | false =>
      obtain ⟨j, hj, rfl⟩ := (ofText_eq_ok_iff hpath).1 h
      exact .json hpath hj
  · rintro (⟨hyaml, hdoc⟩ | ⟨hjson, hj⟩)
    · rw [ofText, if_pos hyaml, hdoc]
    · exact (ofText_eq_ok_iff hjson).2 ⟨_, hj, rfl⟩

/-- A file that is encoded as UTF-8 is read by its text with the line ends made one. -/
theorem ofFile_encode (limits : Limits) (path : FilePath) (raw : String) :
    ofFile limits path (.ok (Text.Utf8.encode raw)) =
      ofText limits path (withLineFeeds raw) >>= fun doc =>
        if doc.isMapping then return doc
        else throw (.reported (.general "Contract root must be a mapping" path.text)) := by
  rw [ofFile, fileText_encode, Outcome.ok_bind]
  rfl

/-! ## What fails -/

theorem Escapes.ne_reported (h : Escapes limits files path halt) (error : ContractError) :
    halt ≠ .reported error := by
  cases h <;> exact nofun

/-- What the loading reports is an error of the contract that names the path. -/
theorem ofFile_of_reports {detail : String} (h : Reports limits files path detail) :
    ofFile limits path (files.read path) = .error (.reported (.general detail path.text)) := by
  cases h with
  | unreadable hnull hread =>
    rw [hread, ofFile, fileText, if_neg (FileTree.ne_nullCharacter_of_read hread hnull)]
    rfl
  | malformedYaml hyaml hread hfault =>
    rw [hread, ofFile_encode, ofText, if_pos hyaml, hfault]
    rfl
  | malformedJson hjson hread hfault =>
    rw [hread, ofFile_encode, ofText, hjson, if_neg Bool.false_ne_true, hfault]
    rfl
  | noMapping hread hdoc hmapping =>
    rw [hread, ofFile_encode]
    rw [ofText_eq_ok_iff_isWrittenIn.2 hdoc, Outcome.ok_bind, hmapping, if_neg Bool.false_ne_true]
    rfl

/-- What escapes the loading ends it as it is. -/
theorem ofFile_of_escapes (h : Escapes limits files path halt) :
    ofFile limits path (files.read path) = .error halt := by
  cases h with
  | nullCharacter hnull =>
    rw [FileTree.read_of_null hnull]
    rfl
  | encoding hread _ hmisfit =>
    rw [hread, ofFile, fileText, hmisfit]
    rfl
  | digits hjson hread _ _ _ hfault =>
    rw [hread, ofFile_encode, ofText, hjson, if_neg Bool.false_ne_true, hfault]
    rfl
  | nesting hjson hread _ hfault =>
    rw [hread, ofFile_encode, ofText, hjson, if_neg Bool.false_ne_true, hfault]
    rfl
  | unpaired hjson hread _ _ _ hfault =>
    rw [hread, ofFile_encode, ofText, hjson, if_neg Bool.false_ne_true, hfault]
    rfl
  | yaml hyaml hread hfault hother =>
    rw [hread, ofFile_encode, ofText, if_pos hyaml, hfault]
    split
    -- A fault of YAML is reported only for a breach of the format, which this is not.
    · next heq => cases heq
    · next heq => exact absurd (Except.error.inj heq) hother
    · next heq =>
      rw [Except.error.inj heq]
      rfl

/-! ## Nothing else fails -/

/-- A text that is no document makes the loading fail in one of the listed ways. -/
theorem fails_of_ofText (hread : files.read path = .ok (Text.Utf8.encode raw))
    (h : ofText limits path (withLineFeeds raw) = .error halt) : Fails limits files path halt := by
  unfold ofText at h
  split at h
  · next hyaml =>
    split at h
    · cases h
    · next hfault =>
      obtain rfl := Except.error.inj h
      exact .reported (.malformedYaml hyaml hread hfault)
    · next hother hfault =>
      obtain rfl := Except.error.inj h
      exact .escaped (.yaml hyaml hread hfault hother (failsOnly_ofYaml _ _ _ hfault))
  · next hyaml =>
    have hjson := Bool.eq_false_of_not_eq_true hyaml
    split at h
    · cases h
    · next hfault =>
      obtain rfl := Except.error.inj h
      exact .reported (.malformedJson hjson hread hfault)
    · next hfault =>
      obtain rfl := Except.error.inj h
      obtain ⟨run, hrun, hdigits, hlimit, rfl⟩ := Json.exists_run_of_parse hfault
      -- A digit ends no line, so the run stands in the file as well.
      have hraw : run <:+: raw.toList :=
        infix_of_infix_withLineFeeds
          (fun c hc => Text.isNewline_eq_false (P := (·.isDigit = true)) nofun nofun (hdigits c hc))
          hrun
      exact .escaped (.digits hjson hread hraw hdigits hlimit hfault)
    · next hfault =>
      obtain rfl := Except.error.inj h
      obtain ⟨limit, hlimit, hcount⟩ := Json.lt_openings_of_parse hfault
      obtain rfl := Option.some.inj hlimit
      rw [countP_withLineFeeds (by decide) (by decide)] at hcount
      exact .escaped (.nesting hjson hread hcount hfault)
    · next hfault =>
      obtain rfl := Except.error.inj h
      obtain ⟨hhalf, digits, hescape, hnumber⟩ := Json.exists_escape_of_parse hfault
      -- Neither do hexadecimal digits and what stands before them.
      have hword : ∀ c ∈ '\\' :: 'u' :: digits, Text.isNewline c = false :=
        List.forall_mem_cons.2 ⟨rfl, List.forall_mem_cons.2
          ⟨rfl, Json.Reader.isNewline_of_hexNumber? hnumber⟩⟩
      have hraw := infix_of_infix_withLineFeeds hword hescape
      exact .escaped (.unpaired hjson hread hraw hnumber hhalf hfault)

/-- A failed loading fails in one of the listed ways. -/
theorem fails_of_ofFile (h : ofFile limits path (files.read path) = .error halt) :
    Fails limits files path halt := by
  -- The cases follow the loading: the file is read, its bytes are decoded, the text is a document,
  -- and the document is a mapping.
  cases hread : files.read path with
  | error fault =>
    cases hnull : path.text.toList.contains '\x00' with
    | true =>
      rw [ofFile_of_escapes (.nullCharacter hnull)] at h
      obtain rfl := Except.error.inj h
      exact .escaped (.nullCharacter hnull)
    | false =>
      rw [ofFile_of_reports (.unreadable hnull hread)] at h
      obtain rfl := Except.error.inj h
      exact .reported (.unreadable hnull hread)
  | ok bytes =>
    cases hbytes : Text.Utf8.read bytes with
    | error misfit =>
      have hescapes : Escapes limits files path (.encoding misfit) :=
        .encoding hread (Text.Utf8.exists_read_eq_error_iff.1 ⟨misfit, hbytes⟩) hbytes
      rw [ofFile_of_escapes hescapes] at h
      obtain rfl := Except.error.inj h
      exact .escaped hescapes
    | ok raw =>
      obtain rfl := Text.Utf8.read_eq_ok_iff.1 hbytes
      rw [hread, ofFile_encode] at h
      rcases Outcome.bind_eq_error.1 h with h | ⟨doc, hdoc, h⟩
      · exact fails_of_ofText hread h
      · split at h
        · cases h
        · next hmapping =>
          obtain rfl := Except.error.inj h
          have hwritten := ofText_eq_ok_iff_isWrittenIn.1 hdoc
          exact .reported (.noMapping hread hwritten (Bool.eq_false_of_not_eq_true hmapping))

/-- The loading fails exactly in the listed ways. -/
theorem ofFile_eq_error_iff :
    ofFile limits path (files.read path) = .error halt ↔ Fails limits files path halt := by
  constructor
  · exact fails_of_ofFile
  · rintro (hreports | hescapes)
    · exact ofFile_of_reports hreports
    · exact ofFile_of_escapes hescapes

/-- The root of a document that is loaded is a mapping. -/
theorem isMapping_of_ofFile {content : Except FileFault (List UInt8)} {doc : Document}
    (h : ofFile limits path content = .ok doc) : doc.isMapping = true := by
  obtain ⟨text, -, h⟩ := Outcome.bind_eq_ok.1 h
  obtain ⟨doc', -, h⟩ := Outcome.bind_eq_ok.1 h
  split at h
  · next hmapping =>
    obtain rfl := Except.ok.inj h
    exact hmapping
  · cases h

end TypedRoutes.Document
