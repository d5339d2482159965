import TypedRoutes.Entries
import Mathlib.Data.List.Forall2
import Mathlib.Data.List.Induction
import Mathlib.Data.List.Nodup

/-!
# Laws of ordered entries

What a change of one key does to the value of every key and to the list of keys, and when looking a
key up finds every entry of the list: if no key stands twice (`lookup_eq_some_iff_mem`), which a
change preserves (`nodup_keys_alter`). Lists whose entries are related one by one stay so when one
key is changed in both (`forall₂_alter`).
-/

set_option autoImplicit false

namespace TypedRoutes.Entries

variable {κ α : Type}

/-- The keys of a list of entries, in order. -/
def keys (entries : List (κ × α)) : List κ := entries.map Prod.fst

@[simp] theorem keys_nil : keys ([] : List (κ × α)) = [] := rfl

@[simp] theorem keys_cons (entry : κ × α) (rest : List (κ × α)) :
    keys (entry :: rest) = entry.1 :: keys rest := rfl

/-! ## Keys under any comparison -/

section Compared

variable (same : κ → κ → Bool)

/-- A key that is there, as far as the comparison tells, keeps its place and its spelling. -/
theorem keys_alterBy (key : κ) (change : Option α → α) (entries : List (κ × α)) :
    keys (alterBy same key change entries) =
      if (keys entries).any (same · key) then keys entries else keys entries ++ [key] := by
  induction entries with
  | nil => rfl
  | cons entry rest ih =>
    obtain ⟨k, value⟩ := entry
    rw [alterBy, keys_cons, List.any_cons]
    cases hsame : same k key with
    | true => rfl
    | false =>
      rw [if_neg Bool.false_ne_true, keys_cons, ih, Bool.false_or]
      split
      · rfl
      · rfl

/-- Of the keys that assignments leave, none is the same as an earlier one. -/
theorem pairwise_keys_ofAssignments (assignments : List (κ × α)) :
    (keys (ofAssignments same assignments)).Pairwise fun a b => same a b = false := by
  induction assignments using List.reverseRecOn with
  | nil => exact List.Pairwise.nil
  | append_singleton before entry ih =>
    rw [ofAssignments, List.foldl_append, ← ofAssignments, List.foldl_cons, List.foldl_nil,
      keys_alterBy]
    split
    · exact ih
    · next hnew =>
      rw [List.pairwise_append]
      refine ⟨ih, List.pairwise_singleton _ _, ?_⟩
      intro a ha b hb
      obtain rfl := List.mem_singleton.1 hb
      simpa using fun hsame => hnew (List.any_eq_true.2 ⟨a, ha, hsame⟩)

/-- The keys that assignments leave are among those that are assigned. -/
theorem mem_keys_of_mem_ofAssignments {assignments : List (κ × α)} {key : κ}
    (h : key ∈ keys (ofAssignments same assignments)) : key ∈ keys assignments := by
  induction assignments using List.reverseRecOn with
  | nil => exact h
  | append_singleton before entry ih =>
    rw [ofAssignments, List.foldl_append, ← ofAssignments, List.foldl_cons, List.foldl_nil,
      keys_alterBy] at h
    rw [keys, List.map_append, List.mem_append]
    split at h
    · exact .inl (ih h)
    · rcases List.mem_append.1 h with h | h
      · exact .inl (ih h)
      · exact .inr h

end Compared

variable [BEq κ] [LawfulBEq κ]

omit [LawfulBEq κ] in
@[simp] theorem alter_nil (key : κ) (change : Option α → α) :
    alter key change [] = [(key, change none)] := rfl

/-- A change finds the first entry under its key. -/
theorem alter_cons_self (key : κ) (change : Option α → α) (value : α) (rest : List (κ × α)) :
    alter key change ((key, value) :: rest) = (key, change (some value)) :: rest := by
  simp [alter, alterBy]

theorem alter_cons_of_ne {key k : κ} (h : k ≠ key) (change : Option α → α) (value : α)
    (rest : List (κ × α)) :
    alter key change ((k, value) :: rest) = (k, value) :: alter key change rest := by
  simp [alter, alterBy, h]

/-- The changed key has its new value. -/
theorem lookup_alter_self (key : κ) (change : Option α → α) (entries : List (κ × α)) :
    (alter key change entries).lookup key = some (change (entries.lookup key)) := by
  induction entries with
  | nil => simp
  | cons entry rest ih =>
    obtain ⟨k, value⟩ := entry
    by_cases h : k = key
    · subst h
      rw [alter_cons_self, List.lookup_cons_self, List.lookup_cons_self]
    · have hne : (key == k) = false := by simpa using fun e => h e.symm
      rw [alter_cons_of_ne h, List.lookup_cons, List.lookup_cons, hne]
      exact ih

/-- The other keys keep their values. -/
theorem lookup_alter_of_ne {key k : κ} (h : k ≠ key) (change : Option α → α)
    (entries : List (κ × α)) : (alter key change entries).lookup k = entries.lookup k := by
  induction entries with
  | nil => simpa using h
  | cons entry rest ih =>
    obtain ⟨k', value⟩ := entry
    by_cases h' : k' = key
    · subst h'
      have hne : (k == k') = false := by simpa using h
      rw [alter_cons_self, List.lookup_cons, List.lookup_cons, hne]
    · rw [alter_cons_of_ne h', List.lookup_cons, List.lookup_cons, ih]

/-- A key that is there keeps its place, and a new one goes to the end. -/
theorem keys_alter (key : κ) (change : Option α → α) (entries : List (κ × α)) :
    keys (alter key change entries) =
      if key ∈ keys entries then keys entries else keys entries ++ [key] := by
  induction entries with
  | nil => rfl
  | cons entry rest ih =>
    obtain ⟨k, value⟩ := entry
    by_cases h : k = key
    · subst h
      simp [alter_cons_self]
    · rw [alter_cons_of_ne h, keys_cons, ih]
      by_cases hmem : key ∈ keys rest
      · simp [hmem]
      · simp [hmem, Ne.symm h]

/-- A change keeps the keys different: it adds its own only when that is missing. -/
theorem nodup_keys_alter {key : κ} {change : Option α → α} {entries : List (κ × α)}
    (h : (keys entries).Nodup) : (keys (alter key change entries)).Nodup := by
  rw [keys_alter]
  split
  · exact h
  · next hnew => exact List.Nodup.append h (List.nodup_singleton key) (by simpa using hnew)

/-- Every entry after a change was there before or is the changed one. -/
theorem forall_mem_alter {p : α → Prop} {key : κ} {change : Option α → α}
    {entries : List (κ × α)} (hp : ∀ entry ∈ entries, p entry.2)
    (hchange : p (change (entries.lookup key))) :
    ∀ entry ∈ alter key change entries, p entry.2 := by
  induction entries with
  | nil => simpa using hchange
  | cons entry rest ih =>
    obtain ⟨k, value⟩ := entry
    rw [List.forall_mem_cons] at hp
    by_cases h : k = key
    · subst h
      rw [List.lookup_cons_self] at hchange
      rw [alter_cons_self, List.forall_mem_cons]
      exact ⟨hchange, hp.2⟩
    · have hne : (key == k) = false := by simpa using fun e => h e.symm
      rw [List.lookup_cons, hne] at hchange
      rw [alter_cons_of_ne h, List.forall_mem_cons]
      exact ⟨hp.1, ih hp.2 hchange⟩

/-- A change under a new key adds an entry at the end. -/
theorem alter_of_not_mem {key : κ} {change : Option α → α} {entries : List (κ × α)}
    (h : key ∉ keys entries) : alter key change entries = entries ++ [(key, change none)] := by
  induction entries with
  | nil => rfl
  | cons entry rest ih =>
    obtain ⟨k, value⟩ := entry
    rw [keys_cons, List.mem_cons, not_or] at h
    rw [alter_cons_of_ne (Ne.symm h.1), ih h.2, List.cons_append]

/-- Entries that are related one by one stay so if the changes of one key give related values. -/
theorem forall₂_alter {β : Type} {R : α → β → Prop} {key : κ} {f : Option α → α} {g : Option β → β}
    {entries : List (κ × α)} {entries' : List (κ × β)}
    (h : List.Forall₂ (fun e e' => e.1 = e'.1 ∧ R e.2 e'.2) entries entries')
    (hfg : ∀ a b, Option.Rel R a b → R (f a) (g b)) :
    List.Forall₂ (fun e e' => e.1 = e'.1 ∧ R e.2 e'.2) (alter key f entries)
      (alter key g entries') := by
  induction h with
  | nil => exact .cons ⟨rfl, hfg _ _ .none⟩ .nil
  | @cons e e' rest rest' hentry hrest ih =>
    obtain ⟨k, a⟩ := e
    obtain ⟨k', b⟩ := e'
    obtain ⟨rfl, hvalue⟩ := hentry
    by_cases hkey : k = key
    · subst hkey
      rw [alter_cons_self, alter_cons_self]
      exact .cons ⟨rfl, hfg _ _ (.some hvalue)⟩ hrest
    · rw [alter_cons_of_ne hkey, alter_cons_of_ne hkey]
      exact .cons ⟨rfl, hvalue⟩ ih

omit [LawfulBEq κ] in
/-- A change of the values goes past a change of one key that agrees with it. -/
theorem map_alter {β : Type} {f : α → β} {key : κ} {change : Option α → α}
    {change' : Option β → β} (h : ∀ value, f (change value) = change' (value.map f))
    (entries : List (κ × α)) :
    (alter key change entries).map (Prod.map id f) =
      alter key change' (entries.map (Prod.map id f)) := by
  induction entries with
  | nil => simp [h]
  | cons entry rest ih =>
    obtain ⟨k, value⟩ := entry
    simp only [alter, alterBy, List.map_cons, Prod.map_apply, id_eq] at ih ⊢
    split
    · rw [List.map_cons, Prod.map_apply, h, id_eq, Option.map_some]
    · rw [List.map_cons, ih, Prod.map_apply, id_eq]

omit [LawfulBEq κ] in
/-- Putting a value under a key commutes with a map of the values. -/
theorem map_put {β : Type} (f : α → β) (key : κ) (value : α) (entries : List (κ × α)) :
    (put key value entries).map (Prod.map id f) =
      put key (f value) (entries.map (Prod.map id f)) :=
  map_alter (by exact fun _ => rfl) entries

/-! ## Lists of assignments -/

omit [LawfulBEq κ] in
/-- The last assignment decides what stands under its key. -/
theorem ofAssignments_concat (assignments : List (κ × α)) (key : κ) (value : α) :
    ofAssignments (· == ·) (assignments ++ [(key, value)]) =
      alter key (fun _ => value) (ofAssignments (· == ·) assignments) := by
  rw [ofAssignments, List.foldl_append]
  rfl

/-- Assignments to distinct keys are the entries themselves. -/
theorem ofAssignments_of_nodup {assignments : List (κ × α)} (h : (keys assignments).Nodup) :
    ofAssignments (· == ·) assignments = assignments := by
  induction assignments using List.reverseRecOn with
  | nil => rfl
  | append_singleton before entry ih =>
    obtain ⟨key, value⟩ := entry
    rw [keys, List.map_append, List.nodup_append] at h
    -- The last key is not there yet, so its entry goes to the end.
    have hnew : key ∉ keys before := fun hmem => h.2.2 key hmem key (by simp) rfl
    rw [ofAssignments_concat, ih h.1, alter_of_not_mem hnew]

/-- However often a key is assigned, it stands once among the entries. -/
theorem nodup_keys_ofAssignments (assignments : List (κ × α)) :
    (keys (ofAssignments (· == ·) assignments)).Nodup := by
  induction assignments using List.reverseRecOn with
  | nil => exact List.nodup_nil
  | append_singleton before entry ih =>
    rw [ofAssignments_concat]
    exact nodup_keys_alter ih

/-- What holds of every assigned value holds of every entry. -/
theorem forall_mem_ofAssignments {p : α → Prop} {assignments : List (κ × α)}
    (h : ∀ entry ∈ assignments, p entry.2) :
    ∀ entry ∈ ofAssignments (· == ·) assignments, p entry.2 := by
  induction assignments using List.reverseRecOn with
  | nil => exact h
  | append_singleton before entry ih =>
    rw [List.forall_mem_append] at h
    rw [ofAssignments_concat]
    exact forall_mem_alter (ih h.1) (h.2 entry (List.mem_singleton_self entry))

/-! ## Looking keys up -/

theorem mem_of_lookup_eq_some {key : κ} {value : α} {entries : List (κ × α)}
    (h : entries.lookup key = some value) : (key, value) ∈ entries := by
  obtain ⟨before, after, rfl, -⟩ := List.lookup_eq_some_iff.1 h
  simp

/-- Among distinct keys, looking up finds every entry. -/
theorem lookup_eq_some_iff_mem {key : κ} {value : α} {entries : List (κ × α)}
    (h : (keys entries).Nodup) : entries.lookup key = some value ↔ (key, value) ∈ entries := by
  constructor
  · exact mem_of_lookup_eq_some
  · intro hmem
    obtain ⟨before, after, rfl⟩ := List.append_of_mem hmem
    -- No entry before it has the same key.
    refine List.lookup_eq_some_iff.2 ⟨before, after, rfl, ?_⟩
    intro entry hentry
    rw [keys, List.map_append, List.nodup_append] at h
    have hne := h.2.2 entry.1 (List.mem_map_of_mem hentry) key (by simp)
    simpa using fun e => hne e.symm

end TypedRoutes.Entries
