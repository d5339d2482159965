import TypedRoutes.Proofs.Text.Lexeme

/-!
# Texts without their comments

A comment is taken out of a text together with the blanks before it and the line feed after it
(`Text.uncommented?`). What has no comment stays as it is (`Text.uncomment_append`), and a comment
on a line of its own leaves nothing behind (`Text.uncomment_commentLine`).
-/

set_option autoImplicit false

namespace TypedRoutes.Text

/-- Puts a lexeme before others, unless it is a blank before a comment. -/
def unpad (token : Lexeme) : List Lexeme → List Lexeme
  | .comment body :: rest =>
    if token = .plain ' ' then .comment body :: rest else token :: .comment body :: rest
  | rest => token :: rest

/-- Takes the blanks before comments away. -/
def unpadded (tokens : List Lexeme) : List Lexeme := tokens.foldr unpad []

/-- Takes comments away, each with the line feed after it. -/
def withoutComments : List Lexeme → List Lexeme
  | [] => []
  | .comment _ :: .plain '\n' :: rest => withoutComments rest
  | .comment _ :: rest => withoutComments rest
  | token :: rest => token :: withoutComments rest

/-- The lexemes that are left when each comment is taken out with its padding and its line feed. -/
def uncomment (tokens : List Lexeme) : List Lexeme := withoutComments (unpadded tokens)

/-- The text without its comments, if each of its strings and comments is ended. -/
def uncommented? (text : String) : Option String :=
  (lexemes text.toList).map fun tokens => String.ofList ((uncomment tokens).flatMap Lexeme.chars)

/-- The texts of the comments of a text. -/
def comments? (text : String) : Option (List (List Char)) :=
  (lexemes text.toList).map fun tokens => tokens.filterMap Lexeme.comment?

example : uncommented? "a\n  /* '*\\/ */\n  '/*' /**//***/ b" = some "a\n  '/*' b" := by
  decide +kernel

/-! ## Line by line -/

/-- The lexemes begin with a line feed, or there are none. -/
def StartsLine (tokens : List Lexeme) : Prop := ∀ token ∈ tokens.head?, token = .plain '\n'

theorem startsLine_nil : StartsLine [] := nofun

theorem startsLine_cons (rest : List Lexeme) : StartsLine (.plain '\n' :: rest) := by
  rintro token ⟨⟩
  rfl

theorem StartsLine.append {tokens rest : List Lexeme} (htokens : StartsLine tokens)
    (hrest : StartsLine rest) : StartsLine (tokens ++ rest) := by
  cases tokens with
  | nil => exact hrest
  | cons token tokens => exact htokens

theorem unpad_of_ne_blank {token : Lexeme} (h : token ≠ .plain ' ') (rest : List Lexeme) :
    unpad token rest = token :: rest := by
  unfold unpad
  split
  · rw [if_neg h]
  · rfl

theorem unpad_of_head {token : Lexeme} {rest : List Lexeme}
    (h : ∀ next ∈ rest.head?, next.comment? = none) : unpad token rest = token :: rest := by
  unfold unpad
  split
  · cases h _ rfl
  · rfl

theorem unpadded_feed (rest : List Lexeme) :
    unpadded (.plain '\n' :: rest) = .plain '\n' :: unpadded rest :=
  unpad_of_ne_blank (by decide) _

/-- Lexemes without comments keep their padding in front of the start of a line. -/
theorem unpadded_append {tokens rest : List Lexeme} (h : tokens.filterMap Lexeme.comment? = [])
    (hrest : StartsLine rest) : unpadded (tokens ++ rest) = tokens ++ unpadded rest := by
  rw [List.filterMap_eq_nil_iff] at h
  -- What follows the last of the lexemes is no comment either.
  have hhead : ∀ next ∈ (unpadded rest).head?, next.comment? = none := by
    cases rest with
    | nil => exact nofun
    | cons token rest =>
      obtain rfl := hrest token rfl
      rw [unpadded_feed]
      rintro next ⟨⟩
      rfl
  induction tokens with
  | nil => rfl
  | cons token tokens ih =>
    obtain ⟨-, htokens⟩ := List.forall_mem_cons.1 h
    have hnext : ∀ next ∈ (tokens ++ unpadded rest).head?, next.comment? = none := by
      cases tokens with
      | nil => exact hhead
      | cons next tokens =>
        rintro _ ⟨⟩
        exact htokens next List.mem_cons_self
    have hcons : unpadded (token :: (tokens ++ rest)) = unpad token (unpadded (tokens ++ rest)) :=
      rfl
    rw [List.cons_append, hcons, ih htokens, unpad_of_head hnext]
    rfl

/-- Lexemes without comments are kept. -/
theorem withoutComments_append {tokens : List Lexeme}
    (h : tokens.filterMap Lexeme.comment? = []) (rest : List Lexeme) :
    withoutComments (tokens ++ rest) = tokens ++ withoutComments rest := by
  rw [List.filterMap_eq_nil_iff] at h
  induction tokens with
  | nil => rfl
  | cons token tokens ih =>
    obtain ⟨htoken, htokens⟩ := List.forall_mem_cons.1 h
    cases token with
    | comment body => cases htoken
    | plain c =>
      rw [List.cons_append, withoutComments, ih htokens, List.cons_append] <;> exact nofun
    | quoted quote body =>
      rw [List.cons_append, withoutComments, ih htokens, List.cons_append] <;> exact nofun

/-- What has no comment stays as it is. -/
theorem uncomment_append {tokens rest : List Lexeme} (h : tokens.filterMap Lexeme.comment? = [])
    (hrest : StartsLine rest) : uncomment (tokens ++ rest) = tokens ++ uncomment rest := by
  rw [uncomment, unpadded_append h hrest, withoutComments_append h, uncomment]

theorem uncomment_feed (rest : List Lexeme) :
    uncomment (.plain '\n' :: rest) = .plain '\n' :: uncomment rest := by
  rw [uncomment, unpadded_feed, withoutComments, uncomment] <;> exact nofun

/-- A comment on a line of its own leaves nothing behind. -/
theorem uncomment_commentLine {pad : List Lexeme} (hpad : ∀ token ∈ pad, token = .plain ' ')
    (body : List Char) (rest : List Lexeme) :
    uncomment (.plain '\n' :: (pad ++ .comment body :: .plain '\n' :: rest)) =
      uncomment (.plain '\n' :: rest) := by
  have hpadded : unpadded (pad ++ .comment body :: .plain '\n' :: rest) =
      .comment body :: unpadded (.plain '\n' :: rest) := by
    induction pad with
    | nil =>
      have hne : Lexeme.comment body ≠ .plain ' ' := nofun
      exact unpad_of_ne_blank hne _
    | cons token pad ih =>
      obtain ⟨rfl, hblanks⟩ := List.forall_mem_cons.1 hpad
      have hcons : unpadded (.plain ' ' :: (pad ++ .comment body :: .plain '\n' :: rest)) =
          unpad (.plain ' ') (unpadded (pad ++ .comment body :: .plain '\n' :: rest)) := rfl
      rw [List.cons_append, hcons, ih hblanks]
      rfl
  rw [uncomment_feed, uncomment_feed, uncomment, hpadded, unpadded_feed]
  rfl

end TypedRoutes.Text
