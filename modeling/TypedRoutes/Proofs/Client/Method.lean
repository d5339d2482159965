import TypedRoutes.Client.Method
import TypedRoutes.Proofs.Client.Written
import TypedRoutes.Proofs.Schema.Piece
import TypedRoutes.Proofs.Text.Run

/-!
# Reading methods

What a route is written as can be read back without the route. A descriptor and a signature are both
lists of names with types: `Descriptor.read?` cuts a descriptor into its lines, `Signature.read?`
cuts a signature at the bracket after the parameters and at the commas between them, and each piece
is read by `Annotation.read?`. As types are pieces, nothing in a type is taken for a cut, and both
readers give what was written (`Descriptor.read?_layOutFields`, `Signature.read?_signatureText`).

So a descriptor and a signature of one route can be compared as they stand in the two declarations,
and they agree (`Route.exists_readings`).
-/

set_option autoImplicit false

namespace TypedRoutes

open Text (IsPiece isPiece_of_typeChars splitOutside typeSeparators)

/-! ## Annotations -/

/-- A name with its type, and whether it may be left out. -/
structure Annotation where
  name : String
  isOptional : Bool
  type : String
  deriving DecidableEq, Repr

namespace Annotation

/-- The annotation as it is written. -/
def text (a : Annotation) : String := a.name ++ (if a.isOptional then "?" else "") ++ ": " ++ a.type

/-- The annotation of a name, if there is a type. -/
def ofType? (name : String) (isOptional : Bool) (type : Option String) : List Annotation :=
  (type.map (⟨name, isOptional, ·⟩)).toList

/-- Reads an annotation after blanks. -/
def read? (cs : List Char) : Option Annotation :=
  let written := cs.dropWhile (· = ' ')
  let label := written.takeWhile (· ≠ ':')
  match written.dropWhile (· ≠ ':') with
  | ':' :: ' ' :: type =>
    if label.getLast? = some '?' then some ⟨String.ofList label.dropLast, true, String.ofList type⟩
    else some ⟨String.ofList label, false, String.ofList type⟩
  | _ => none

/-- Names of letters, which hold no mark of an annotation. -/
def IsNamed (a : Annotation) : Prop := ∀ c ∈ a.name.toList, c.isAlpha = true

theorem isNamed_mk {name : String} (h : ∀ c ∈ name.toList, c.isAlpha = true) (isOptional : Bool)
    (type : String) : IsNamed ⟨name, isOptional, type⟩ := h

theorem isNamed_ofType? {name : String} (h : ∀ c ∈ name.toList, c.isAlpha = true)
    {isOptional : Bool} {type : Option String} : ∀ a ∈ ofType? name isOptional type, a.IsNamed := by
  intro a ha
  obtain ⟨text, -, rfl⟩ := Option.map_eq_some_iff.1 (Option.mem_toList.1 ha)
  exact h

/-- The name and the mark of an annotation. -/
def label (a : Annotation) : List Char := a.name.toList ++ if a.isOptional then ['?'] else []

/-- An annotation is its label, a colon and its type. -/
theorem toList_text (a : Annotation) :
    a.text.toList = a.label ++ ':' :: ' ' :: a.type.toList := by
  have hcolon : ": ".toList = [':', ' '] := rfl
  obtain ⟨name, isOptional, type⟩ := a
  cases isOptional <;> simp [text, label, hcolon]

/-- A label holds neither the blank nor the colon that come after it. -/
theorem IsNamed.forall_mem_label {a : Annotation} (h : a.IsNamed) :
    ∀ c ∈ a.label, c ≠ ' ' ∧ c ≠ ':' := by
  have hmarks : ∀ c ∈ [' ', ':'], ¬ (c.isAlpha = true ∨ c = '?') := by decide
  intro c hc
  have hclass : c.isAlpha = true ∨ c = '?' := by
    rcases List.mem_append.1 hc with hname | hmark
    · exact .inl (h c hname)
    · refine .inr ?_
      split at hmark
      · exact List.mem_singleton.1 hmark
      · cases hmark
  constructor
  · rintro rfl
    exact hmarks _ (by decide) hclass
  · rintro rfl
    exact hmarks _ (by decide) hclass

/-- An annotation is read as it was written, after any blanks. -/
theorem read?_padded {a : Annotation} (h : a.IsNamed) {blanks : List Char}
    (hblanks : ∀ c ∈ blanks, c = ' ') : read? (blanks ++ a.text.toList) = some a := by
  have hlabel := h.forall_mem_label
  have hstops : Text.Stops (fun c => decide (c = ' '))
      (a.label ++ ':' :: ' ' :: a.type.toList) := by
    cases hcases : a.label with
    | nil => exact Text.stops_cons.2 (by decide)
    | cons c rest =>
      refine Text.stops_cons.2 (decide_eq_false ?_)
      exact (hlabel c (hcases ▸ List.mem_cons_self)).1
  have hwritten : (blanks ++ a.text.toList).dropWhile (fun c => decide (c = ' ')) =
      a.label ++ ':' :: ' ' :: a.type.toList := by
    rw [toList_text]
    exact Text.dropWhile_append_stops (fun c hc => decide_eq_true (hblanks c hc)) hstops
  have hbefore : ∀ c ∈ a.label, decide (c ≠ ':') = true :=
    fun c hc => decide_eq_true (hlabel c hc).2
  have hcolon : Text.Stops (fun c => decide (c ≠ ':')) (':' :: ' ' :: a.type.toList) :=
    Text.stops_cons.2 (by decide)
  simp only [read?, hwritten, Text.dropWhile_append_stops hbefore hcolon,
    Text.takeWhile_append_stops hbefore hcolon]
  obtain ⟨name, isOptional, type⟩ := a
  cases isOptional with
  | true => simp [label]
  | false =>
    -- A name of letters does not end in the mark of what may be left out.
    have hmark : name.toList.getLast? ≠ some '?' := by
      intro hlast
      have hletter := h '?' (List.mem_of_getLast? hlast)
      exact absurd hletter (by decide)
    simp [label, hmark]

/-- An annotation is one piece when its type is, as its label holds no separator. -/
theorem isPiece_text {separator : Char} (hseparator : separator ∈ typeSeparators) {a : Annotation}
    (h : a.IsNamed) (htype : IsPiece separator a.type) : IsPiece separator a.text := by
  have hname : IsPiece separator a.name := isPiece_of_typeChars hseparator fun c hc => by
    refine .inl (.inl ?_)
    rw [Char.isAlphanum, h c hc, Bool.true_or]
  have hmark : IsPiece separator (if a.isOptional then "?" else "") := by
    split
    · exact isPiece_of_typeChars hseparator (by decide)
    · exact Text.isPiece_empty
  have hcolon : IsPiece separator ": " := isPiece_of_typeChars hseparator (by decide)
  exact ((hname.append hmark).append hcolon).append htype

/-- Annotations with blanks before each are read as they were written. -/
theorem mapM_read?_padded {annotations : List Annotation} (h : ∀ a ∈ annotations, a.IsNamed)
    {blanks : List Char} (hblanks : ∀ c ∈ blanks, c = ' ') :
    (annotations.map fun a => blanks ++ a.text.toList).mapM read? = some annotations := by
  induction annotations with
  | nil => rfl
  | cons a rest ih =>
    obtain ⟨ha, hrest⟩ := List.forall_mem_cons.1 h
    rw [List.map_cons, List.mapM_cons, read?_padded ha hblanks, ih hrest]
    rfl

end Annotation

/-! ## Descriptors -/

/-- What stands between a first and a last character. -/
def Text.within? (first last : Char) : List Char → Option (List Char)
  | [] => none
  | c :: rest => if c = first ∧ rest.getLast? = some last then some rest.dropLast else none

theorem Text.within?_enclosed (first last : Char) (inner : List Char) :
    within? first last (first :: inner ++ [last]) = some inner := by
  simp [within?]

/-- The fields of a descriptor by lines: one line with a blank at each end, or a line for each
between the lines of the braces. -/
def Descriptor.fields? : List (List Char) → Option (List Annotation)
  | [line] => ((Text.within? ' ' ' ' line).bind Annotation.read?).map fun field => [field]
  | lines => lines.tail.dropLast.mapM Annotation.read?

/-- Reads the fields of a descriptor. -/
def Descriptor.read? (text : String) : Option (List Annotation) :=
  ((Text.within? '\x7b' '\x7d' text.toList).bind (splitOutside '\n')).bind fields?

theorem isPiece_padding (level : Int) : IsPiece '\n' (padding level) := by
  apply isPiece_of_typeChars (by decide)
  intro c hc
  rw [eq_blank_of_mem_padding hc]
  decide

/-- The lines of a block stand between its braces. -/
theorem toList_lines_block (inner : List String) (last : String) :
    (lines (["\x7b"] ++ inner ++ [last ++ "\x7d"])).toList =
      '\x7b' :: (lines ("" :: (inner ++ [last]))).toList ++ ['\x7d'] := by
  have hopen : lines (["\x7b"] ++ inner ++ [last ++ "\x7d"]) =
      "\x7b" ++ lines ("" :: (inner ++ [last ++ "\x7d"])) := by
    have hempty : "\x7b" = "\x7b" ++ "" := rfl
    rw [List.append_assoc, List.singleton_append, lines, hempty, String.intercalate_cons_append]
    rfl
  have hclose : lines ("" :: (inner ++ [last ++ "\x7d"])) =
      lines ("" :: (inner ++ [last])) ++ "\x7d" := by
    rw [← List.cons_append, ← List.cons_append, lines, lines,
      String.intercalate_append_of_ne_nil (List.cons_ne_nil _ _) (List.cons_ne_nil _ _),
      String.intercalate_append_of_ne_nil (List.cons_ne_nil _ _) (List.cons_ne_nil _ _)]
    simp only [String.intercalate_singleton, String.append_assoc]
  rw [hopen, hclose]
  simp

namespace Descriptor

/-- A descriptor with one field is read back from its one line. -/
theorem read?_oneLine {field : Annotation} (hname : field.IsNamed)
    (hpiece : IsPiece '\n' field.text) :
    read? ("\x7b " ++ field.text ++ " \x7d") = some [field] := by
  have hblank : IsPiece '\n' " " := isPiece_of_typeChars (by decide) (by decide)
  have htext : ("\x7b " ++ field.text ++ " \x7d").toList =
      '\x7b' :: (" " ++ field.text ++ " ").toList ++ ['\x7d'] := by simp
  have hinner : (" " ++ field.text ++ " ").toList = ' ' :: field.text.toList ++ [' '] := by simp
  have hread := Annotation.read?_padded hname (List.forall_mem_nil _)
  rw [List.nil_append] at hread
  rw [read?, htext, Text.within?_enclosed, Option.bind_some,
    ((hblank.append hpiece).append hblank).splits.splitOutside_eq, Option.bind_some, fields?,
    hinner, Text.within?_enclosed, Option.bind_some, hread]
  rfl

/-- A descriptor with several fields is read back from its block, whatever the level of the
block. -/
theorem read?_block {fields : List Annotation} (hne : fields ≠ [])
    (hnames : ∀ a ∈ fields, a.IsNamed) (hpieces : ∀ a ∈ fields, IsPiece '\n' a.text)
    (level : Int) :
    read? (lines (["\x7b"] ++ fields.map (fun a => padding (level + 1) ++ a.text) ++
      [padding level ++ "\x7d"])) = some fields := by
  have hlines : ∀ line ∈ "" :: (fields.map (fun a => padding (level + 1) ++ a.text) ++
      [padding level]), IsPiece '\n' line := by
    rw [List.forall_mem_cons, List.forall_mem_append, List.forall_mem_map,
      List.forall_mem_singleton]
    exact ⟨Text.isPiece_empty, fun a ha => (isPiece_padding _).append (hpieces a ha),
      isPiece_padding level⟩
  have hfeed : "\n".toList = ['\n'] := rfl
  have hsplit := (Text.Splitter.splits_intercalate hfeed Text.Splitter.keeps_nil
    Text.Splitter.keeps_nil hlines).splitOutside_eq
  simp only [List.nil_append, List.map_append, List.map_map, List.map_cons, List.map_nil,
    Function.comp_def, String.toList_append] at hsplit
  -- The lines of the braces are the first and the last one.
  have hfields (first last : List Char) (between : List (List Char)) (hbetween : between ≠ []) :
      fields? (first :: (between ++ [last])) = between.mapM Annotation.read? := by
    rw [fields?]
    · simp
    · simp [hbetween]
  rw [read?, toList_lines_block, Text.within?_enclosed, Option.bind_some, lines, hsplit,
    Option.bind_some, hfields _ _ _ (by simpa using hne),
    Annotation.mapM_read?_padded hnames (fun _ => eq_blank_of_mem_padding)]

/-- A descriptor is read as the fields that it was written from. -/
theorem read?_layOutFields {fields : List Annotation} (hne : fields ≠ [])
    (hnames : ∀ a ∈ fields, a.IsNamed) (htypes : ∀ a ∈ fields, IsPiece '\n' a.type) (level : Int) :
    read? (Route.layOutFields level (fields.map Annotation.text)) = some fields := by
  have hpieces : ∀ a ∈ fields, IsPiece '\n' a.text :=
    fun a ha => Annotation.isPiece_text (by decide) (hnames a ha) (htypes a ha)
  match fields, hne with
  | [field], _ => exact read?_oneLine (hnames field (by simp)) (hpieces field (by simp))
  | first :: second :: rest, hne =>
    have hblock := read?_block hne hnames hpieces level
    simpa [Route.layOutFields, Function.comp_def] using hblock

end Descriptor

/-! ## Signatures -/

namespace Signature

/-- Reads the parameters of a signature and the type of what it gives. -/
def read? (text : String) : Option (List Annotation × String) :=
  match text.toList with
  | '(' :: rest =>
    match splitOutside ')' rest with
    | some [inside, ' ' :: '=' :: '>' :: ' ' :: result] =>
      ((splitOutside ',' inside).bind fun parts => parts.mapM Annotation.read?).map
        fun parameters => (parameters, String.ofList result)
    | _ => none
  | _ => none

example : read? "(query?: 'a, b' | \x7b c: 1 \x7d, config?: RequestConfig) => Promise<any>" =
    some ([⟨"query", true, "'a, b' | \x7b c: 1 \x7d"⟩, ⟨"config", true, "RequestConfig"⟩],
      "Promise<any>") := by decide +kernel

/-- What stands behind the parameters of a signature is one piece: neither the arrow nor the result
type has a closing parenthesis that is not its own. -/
theorem splits_arrow {call : String} (h : IsPiece ')' call) :
    Text.Splitter.Splits ')' (' ' :: '=' :: '>' :: ' ' :: call.toList)
      [' ' :: '=' :: '>' :: ' ' :: call.toList] := by
  -- The arrow closes no angle bracket, as none is open.
  have harrow : Text.Splitter.run ')' .start [' ', '=', '>', ' '] =
      some ⟨.start, 0, [' ', '=', '>', ' '], []⟩ := by rfl
  have happend := Text.Splitter.run_append ')' .start [' ', '=', '>', ' '] call.toList
  rw [harrow, Option.bind_some, h] at happend
  exact ⟨[], _, rfl, happend⟩

/-- A signature is read as the parameters and the result that it was written from. -/
theorem read?_ofParameters {parameters : List Annotation} (hne : parameters ≠ [])
    (hnames : ∀ a ∈ parameters, a.IsNamed)
    (htypes : ∀ separator ∈ typeSeparators, ∀ a ∈ parameters, IsPiece separator a.type)
    {call : String} (hcall : IsPiece ')' call) :
    read? ("(" ++ ", ".intercalate (parameters.map Annotation.text) ++ ") => " ++ call) =
      some (parameters, call) := by
  have hparts : ∀ separator ∈ typeSeparators, ∀ part ∈ parameters.map Annotation.text,
      IsPiece separator part := by
    intro separator hseparator
    rw [List.forall_mem_map]
    exact fun a ha => Annotation.isPiece_text hseparator (hnames a ha)
      (htypes separator hseparator a ha)
  have hcomma : IsPiece ')' ", " := Text.Splitter.keeps_of_inert (by decide)
  have hinside := hcomma.intercalate (hparts ')' (by decide))
  have htext :
      ("(" ++ ", ".intercalate (parameters.map Annotation.text) ++ ") => " ++ call).toList =
      '(' :: ((", ".intercalate (parameters.map Annotation.text)).toList ++
        ')' :: ' ' :: '=' :: '>' :: ' ' :: call.toList) := by
    have hopening : "(".toList = ['('] := rfl
    have harrow : ") => ".toList = [')', ' ', '=', '>', ' '] := rfl
    simp only [String.toList_append, hopening, harrow, List.append_assoc, List.cons_append,
      List.nil_append]
  -- First the text is cut at the parenthesis that closes the parameters, then these at the commas.
  have hcut := (hinside.splits.append (splits_arrow hcall)).splitOutside_eq
  obtain ⟨first, rest, rfl⟩ := List.exists_cons_of_ne_nil hne
  obtain ⟨hfirst, hrest⟩ := List.forall_mem_cons.1 hnames
  have hglue : ", ".toList = [',', ' '] := rfl
  have hblank : Text.Splitter.Keeps ',' .start [' '] := Text.Splitter.keeps_of_inert (by decide)
  have hsplit := (Text.Splitter.splits_intercalate hglue hblank Text.Splitter.keeps_nil
    (hparts ',' (by decide))).splitOutside_eq
  have hread : (first.text.toList :: rest.map fun a => ' ' :: a.text.toList).mapM
      Annotation.read? = some (first :: rest) := by
    have hone := Annotation.read?_padded hfirst (List.forall_mem_nil _)
    have hothers : (rest.map fun a => ' ' :: a.text.toList).mapM Annotation.read? = some rest :=
      Annotation.mapM_read?_padded hrest (List.forall_mem_singleton.2 rfl)
    rw [List.nil_append] at hone
    rw [List.mapM_cons, hone, hothers]
    rfl
  simp only [List.map_cons, List.map_map, List.nil_append, List.singleton_append,
    Function.comp_def] at hsplit hcut
  rw [read?, htext]
  simp only [List.map_cons, hcut, hsplit, Option.map_some, Option.bind_some, hread,
    String.ofList_toList]

end Signature

end TypedRoutes
