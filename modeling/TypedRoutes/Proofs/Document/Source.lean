import TypedRoutes.Contract.OfFile
import TypedRoutes.Contract.Server
import TypedRoutes.Proofs.Json.LineEnds
import TypedRoutes.Proofs.Outcome
import TypedRoutes.Proofs.Text.Utf8

/-!
# Where documents come from

A server that answers with a text and a file that holds it give the same document, which there is if
the text is a JSON object (`Reply.document_eq_ok_iff`, `Document.ofFile_eq_ok_iff`). What they say
of other texts differs, and so does what they read: a file is read with all its lines ended in the
same way.
-/

set_option autoImplicit false

namespace TypedRoutes

/-- A text is a JSON object, and the document is what is stored of it. -/
def Document.IsReadFrom (limits : Limits) (text : String) (doc : Document) : Prop :=
  ∃ members, Json.parseWithin limits.json text = .ok (.object members) ∧
    doc = .ofJson (.object members)

/-- What an answer holds that does not tell of a failure. -/
theorem Reply.document_eq_ok_iff {limits : Limits} {url : String} {status : Int}
    {reason : Option String} {text : String} {doc : Document} (hstatus : isFailure status = false) :
    (Reply.answered status reason text).document limits url = .ok doc ↔
      doc.IsReadFrom limits text := by
  simp only [document, Document.IsReadFrom, hstatus, if_neg Bool.false_ne_true]
  split
  · next herror => simp [herror]
  · next members hmembers =>
    constructor
    · intro h
      exact ⟨members, hmembers, (Except.ok.inj h).symm⟩
    · rintro ⟨members', hmembers', rfl⟩
      obtain rfl := Json.object.inj (Except.ok.inj (hmembers.symm.trans hmembers'))
      rfl
  · next json hother hjson =>
    constructor
    · intro h
      cases h
    · rintro ⟨members, hmembers, -⟩
      exact absurd (Except.ok.inj (hjson.symm.trans hmembers)) (hother members)

namespace Document

/-- The document of a JSON value is a mapping if the value is an object. -/
theorem isMapping_ofJson_iff {j : Json} :
    (ofJson j).isMapping = true ↔ ∃ members, j = .object members := by
  cases j with
  | object members =>
    simp only [isMapping, ofJson, store, mapping?, Array.getElem?_push_size]
    exact ⟨fun _ => ⟨members, rfl⟩, fun _ => rfl⟩
  | array items => simp [isMapping, ofJson, store, mapping?]
  | _ => simp [isMapping, ofJson, store, mapping?]

/-- The text of a file in UTF-8 is what was encoded, with the line ends made one. -/
theorem fileText_encode (path : FilePath) (text : String) :
    fileText path (.ok (Text.Utf8.encode text)) =
      .ok (String.ofList (Text.unifyNewlines text.toList)) := by
  simp only [fileText, Text.Utf8.read_encode]

/-- A text that is not in a YAML file is a document exactly when it is JSON. -/
theorem ofText_eq_ok_iff {limits : Limits} {path : FilePath} (hpath : path.isYaml = false)
    {text : String} {doc : Document} :
    ofText limits path text = .ok doc ↔
      ∃ j, Json.parseWithin limits.json text = .ok j ∧ doc = ofJson j := by
  unfold ofText
  rw [hpath, if_neg Bool.false_ne_true]
  split
  · next j hj => simp [hj, eq_comm]
  all_goals
    next herror => simp [herror]

/-- What a file holds that is not named like a YAML file. -/
theorem ofFile_eq_ok_iff {limits : Limits} {path : FilePath} (hpath : path.isYaml = false)
    {text : String} {doc : Document} :
    ofFile limits path (.ok (Text.Utf8.encode text)) = .ok doc ↔ doc.IsReadFrom limits text := by
  have hlines : Text.SameLines (String.ofList (Text.unifyNewlines text.toList)).toList
      text.toList := by
    rw [String.toList_ofList]
    exact Text.sameLines_unifyNewlines _
  unfold ofFile
  rw [fileText_encode]
  -- The text that is parsed has its line ends made one, which JSON does not tell apart.
  constructor
  · intro h
    obtain ⟨unified, hunified, h⟩ := Outcome.bind_eq_ok.1 h
    obtain rfl := Except.ok.inj hunified
    obtain ⟨doc', hdoc', h⟩ := Outcome.bind_eq_ok.1 h
    obtain ⟨j, hj, rfl⟩ := (ofText_eq_ok_iff hpath).1 hdoc'
    split at h
    · next hmapping =>
      obtain ⟨members, rfl⟩ := isMapping_ofJson_iff.1 hmapping
      exact ⟨members, (Json.parse_eq_ok_iff_of_sameLines hlines _).1 hj, (Except.ok.inj h).symm⟩
    · cases h
  · rintro ⟨members, hmembers, rfl⟩
    have hj := (Json.parse_eq_ok_iff_of_sameLines hlines _).2 hmembers
    refine Outcome.bind_eq_ok.2 ⟨_, rfl, Outcome.bind_eq_ok.2
      ⟨_, (ofText_eq_ok_iff hpath).2 ⟨_, hj, rfl⟩, ?_⟩⟩
    rw [if_pos (isMapping_ofJson_iff.2 ⟨members, rfl⟩)]
    rfl

end Document
end TypedRoutes
