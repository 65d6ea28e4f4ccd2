import Mathlib

/-!
# Insertion-ordered dictionaries

An association list with unique keys, written to the way an insertion-ordered dictionary is: a
write to a present key keeps its position, and a write to a new key goes to the end.  Lookup,
deletion and membership are those of `AList`; only the write and the bulk write are new here.
Sets are dictionaries without values.
-/

namespace AList

variable {α : Type*} {β : α → Type*} [DecidableEq α]

/-- Write a value: in place when the key is present, at the end otherwise. -/
def set (key : α) (value : β key) (dict : AList β) : AList β :=
  if present : key ∈ dict then
    dict.replace key value
  else
    { entries := dict.entries ++ [⟨key, value⟩]
      nodupKeys := by
        rw [List.NodupKeys, List.keys_append]
        apply List.Nodup.append dict.nodupKeys (List.nodup_singleton key)
        simpa [← mem_keys, keys] using mem_keys.not.mp present }

theorem set_of_mem {key : α} {value : β key} {dict : AList β} (present : key ∈ dict) :
    dict.set key value = dict.replace key value := by
  simp [set, present]

theorem entries_set_of_notMem {key : α} {value : β key} {dict : AList β}
    (absent : key ∉ dict) : (dict.set key value).entries = dict.entries ++ [⟨key, value⟩] := by
  simp [set, absent]

@[simp]
theorem mem_set {key other : α} {value : β key} {dict : AList β} :
    other ∈ dict.set key value ↔ other = key ∨ other ∈ dict := by
  by_cases present : key ∈ dict
  · rw [set_of_mem present, mem_replace]
    constructor
    · exact Or.inr
    · rintro (rfl | member)
      · exact present
      · exact member
  · rw [mem_keys, keys, entries_set_of_notMem present, List.keys_append, List.mem_append]
    simp [mem_keys, keys, or_comm]

theorem keys_set_of_mem {key : α} {value : β key} {dict : AList β} (present : key ∈ dict) :
    (dict.set key value).keys = dict.keys := by
  rw [set_of_mem present, keys_replace]

theorem keys_set_of_notMem {key : α} {value : β key} {dict : AList β} (absent : key ∉ dict) :
    (dict.set key value).keys = dict.keys ++ [key] := by
  rw [keys, entries_set_of_notMem absent, List.keys_append]
  rfl

theorem kreplace_cons_self (key : α) (value old : β key) (entries : List (Sigma β)) :
    List.kreplace key value (⟨key, old⟩ :: entries) = ⟨key, value⟩ :: entries :=
  List.lookmap_cons_some _ _ (by simp)

theorem kreplace_cons_ne {key head : α} (value : β key) (old : β head)
    (entries : List (Sigma β)) (different : key ≠ head) :
    List.kreplace key value (⟨head, old⟩ :: entries) =
      ⟨head, old⟩ :: List.kreplace key value entries :=
  List.lookmap_cons_none _ _ (by simp [different])

theorem dlookup_kreplace (key : α) (value : β key) (entries : List (Sigma β))
    (present : key ∈ entries.keys) :
    (entries.kreplace key value).dlookup key = some value := by
  induction entries with
  | nil => simp at present
  | cons entry entries ih =>
      obtain ⟨head, old⟩ := entry
      by_cases same : key = head
      · subst same
        rw [kreplace_cons_self, List.dlookup_cons_eq]
      · have tail_present : key ∈ entries.keys := by
          simpa [same] using present
        rw [kreplace_cons_ne _ _ _ same, List.dlookup_cons_ne _ _ same]
        exact ih tail_present

theorem dlookup_kreplace_ne {key other : α} (value : β key) (entries : List (Sigma β))
    (different : other ≠ key) :
    (entries.kreplace key value).dlookup other = entries.dlookup other := by
  induction entries with
  | nil => rfl
  | cons entry entries ih =>
      obtain ⟨head, old⟩ := entry
      by_cases same : key = head
      · subst same
        rw [kreplace_cons_self, List.dlookup_cons_ne _ _ different,
          List.dlookup_cons_ne _ _ different]
      · rw [kreplace_cons_ne _ _ _ same]
        by_cases found : other = head
        · subst found
          rw [List.dlookup_cons_eq, List.dlookup_cons_eq]
        · rw [List.dlookup_cons_ne _ _ found, List.dlookup_cons_ne _ _ found, ih]

@[simp]
theorem lookup_set {key : α} {value : β key} {dict : AList β} :
    (dict.set key value).lookup key = some value := by
  by_cases present : key ∈ dict
  · rw [set_of_mem present]
    exact dlookup_kreplace key value dict.entries present
  · rw [lookup, entries_set_of_notMem present, List.dlookup_append]
    simp [List.dlookup_eq_none.mpr present]

@[simp]
theorem lookup_set_ne {key other : α} {value : β key} {dict : AList β}
    (different : other ≠ key) : (dict.set key value).lookup other = dict.lookup other := by
  by_cases present : key ∈ dict
  · rw [set_of_mem present]
    exact dlookup_kreplace_ne value dict.entries different
  · rw [lookup, entries_set_of_notMem present, List.dlookup_append]
    simp [lookup, List.dlookup_cons_ne, different]

theorem filterMap_entries {γ : Type*} {dict : AList fun _ : α => γ} {δ : Type*} (key : α)
    (read : γ → δ) :
    dict.entries.filterMap (fun entry => if entry.1 = key then some (read entry.2) else none) =
      ((dict.lookup key).map read).toList := by
  obtain ⟨entries, nodup⟩ := dict
  change _ = ((entries.dlookup key).map read).toList
  simp only
  induction entries with
  | nil => rfl
  | cons entry entries ih =>
      obtain ⟨head, value⟩ := entry
      rw [List.nodupKeys_cons] at nodup
      by_cases same : head = key
      · subst same
        have absent : entries.dlookup head = none := List.dlookup_eq_none.mpr nodup.1
        have rest := ih nodup.2
        rw [absent] at rest
        simp [rest]
      · rw [List.dlookup_cons_ne _ _ (Ne.symm same), ← ih nodup.2]
        simp [same]

theorem set_eq_self {key : α} {value : β key} {dict : AList β}
    (known : dict.lookup key = some value) : dict.set key value = dict := by
  rw [set_of_mem (lookup_isSome.mp (Option.isSome_of_eq_some known))]
  apply AList.ext
  exact List.kreplace_self dict.nodupKeys (mem_lookup_iff.mp known)

/-! ## What an entry leaves -/

theorem entries_perm_of_lookup {key : α} {value : β key} {dict : AList β}
    (known : dict.lookup key = some value) :
    dict.entries.Perm (⟨key, value⟩ :: (dict.erase key).entries) := by
  have member : Sigma.mk key value ∈ dict.entries := mem_lookup_iff.mp known
  obtain ⟨other, before, after, _, split, rest⟩ :=
    List.exists_of_kerase (List.mem_keys.mpr ⟨value, member⟩)
  have same : other = value := by
    have isOther : Sigma.mk key other ∈ dict.entries := by
      rw [split]
      exact List.mem_append_right _ List.mem_cons_self
    exact Option.some.inj ((mem_lookup_iff.mpr isOther).symm.trans known)
  subst same
  change dict.entries.Perm (⟨key, other⟩ :: dict.entries.kerase key)
  rw [rest, split]
  exact List.perm_middle

theorem erase_of_notMem {key : α} {dict : AList β} (absent : key ∉ dict) :
    dict.erase key = dict :=
  AList.ext (List.kerase_of_notMem_keys absent)

theorem erase_set {key : α} {value : β key} {dict : AList β} :
    ((dict.set key value).erase key).entries.Perm (dict.erase key).entries := by
  apply (List.perm_ext_iff_of_nodup (nodupKeys _).nodup (nodupKeys _).nodup).mpr
  rintro ⟨other, found⟩
  rw [← mem_lookup_iff, ← mem_lookup_iff]
  by_cases same : other = key
  · subst same
    rw [lookup_erase, lookup_erase]
  · rw [lookup_erase_ne same, lookup_erase_ne same, lookup_set_ne same]

theorem entries_set_perm {key : α} {value : β key} {dict : AList β} :
    (dict.set key value).entries.Perm (⟨key, value⟩ :: (dict.erase key).entries) :=
  (entries_perm_of_lookup lookup_set).trans (erase_set.cons _)

/-! ## Writing once -/

/-- Write a value unless the key is present. -/
def setDefault (key : α) (value : β key) (dict : AList β) : AList β :=
  if key ∈ dict then dict else dict.set key value

theorem mem_setDefault {key other : α} {value : β key} {dict : AList β} :
    other ∈ dict.setDefault key value ↔ other = key ∨ other ∈ dict := by
  rw [setDefault]
  split
  · rename_i present
    exact ⟨Or.inr, fun member => member.elim (fun same => same ▸ present) id⟩
  · exact mem_set

theorem setDefault_eq_self {key : α} {value : β key} {dict : AList β} :
    dict.setDefault key value = dict ↔ key ∈ dict := by
  constructor
  · intro same
    rw [← same, mem_setDefault]
    exact .inl rfl
  · exact fun present => if_pos present

theorem lookup_setDefault_of_some {key other : α} {value : β key} {present : β other}
    {dict : AList β} (known : dict.lookup other = some present) :
    (dict.setDefault key value).lookup other = some present := by
  rw [setDefault]
  split
  · exact known
  · rename_i absent
    have different : other ≠ key := by
      rintro rfl
      exact absent (lookup_isSome.mp (Option.isSome_of_eq_some known))
    rw [lookup_set_ne different, known]

theorem lookup_setDefault_self {γ : Type*} {dict : AList fun _ : α => γ} {key : α} {value : γ} :
    (dict.setDefault key value).lookup key = some ((dict.lookup key).getD value) := by
  cases known : dict.lookup key with
  | some present => exact lookup_setDefault_of_some known
  | none =>
      rw [setDefault, if_neg (lookup_eq_none.mp known), lookup_set]
      rfl

/-- Write entries in order, each unless its key is present. -/
def setDefaults (entries : List (Sigma β)) (dict : AList β) : AList β :=
  entries.foldl (fun dict entry => dict.setDefault entry.1 entry.2) dict

theorem setDefaults_append (left right : List (Sigma β)) (dict : AList β) :
    dict.setDefaults (left ++ right) = (dict.setDefaults left).setDefaults right :=
  List.foldl_append

theorem mem_setDefaults {entries : List (Sigma β)} {dict : AList β} {key : α} :
    key ∈ dict.setDefaults entries ↔ key ∈ entries.keys ∨ key ∈ dict := by
  induction entries generalizing dict with
  | nil => simp [setDefaults]
  | cons entry entries ih =>
      change key ∈ (dict.setDefault entry.1 entry.2).setDefaults entries ↔ _
      rw [ih, mem_setDefault, List.keys_cons, List.mem_cons]
      tauto

theorem setDefaults_of_present {entries : List (Sigma β)} {dict : AList β}
    (present : ∀ entry ∈ entries, entry.1 ∈ dict) : dict.setDefaults entries = dict := by
  induction entries with
  | nil => rfl
  | cons entry entries ih =>
      change (dict.setDefault entry.1 entry.2).setDefaults entries = dict
      rw [setDefault, if_pos (present entry List.mem_cons_self)]
      exact ih fun other member => present other (List.mem_cons_of_mem entry member)

/-- An entry is the last whose key was not written before. -/
def NewestEntry (entries : List (Sigma β)) (newest : Sigma β) : Prop :=
  ∃ before after, entries = before ++ newest :: after ∧ newest.1 ∉ before.keys ∧
    ∀ entry ∈ after, entry.1 = newest.1 ∨ entry.1 ∈ before.keys

omit [DecidableEq α] in
/-- Where anything is written, there is a newest entry. -/
theorem exists_newestEntry {entries : List (Sigma β)} (some_entry : entries ≠ []) :
    ∃ newest, NewestEntry entries newest := by
  induction entries using List.reverseRecOn with
  | nil => exact absurd rfl some_entry
  | append_singleton entries last ih =>
      by_cases repeated : last.1 ∈ entries.keys
      · have earlier : entries ≠ [] := by
          rintro rfl
          simp at repeated
        obtain ⟨newest, before, after, split, fresh, known⟩ := ih earlier
        refine ⟨newest, before, after ++ [last], by simp [split], fresh, ?_⟩
        intro entry member
        rcases List.mem_append.mp member with inside | here
        · exact known entry inside
        · rw [List.mem_singleton.mp here]
          rw [split, List.keys_append, List.mem_append, List.keys_cons, List.mem_cons] at repeated
          rcases repeated with old | same | later
          · exact Or.inr old
          · exact Or.inl same
          · obtain ⟨other, inside, same⟩ := List.mem_map.mp later
            rw [← same]
            exact known other inside
      · exact ⟨last, entries, [], rfl, repeated, by simp⟩

/-- The newest entry ends up last. -/
theorem getLast?_setDefaults {entries : List (Sigma β)} {newest : Sigma β}
    (isNewest : NewestEntry entries newest) :
    ((∅ : AList β).setDefaults entries).entries.getLast? = some newest := by
  obtain ⟨before, after, rfl, fresh, known⟩ := isNewest
  have absent : newest.1 ∉ (∅ : AList β).setDefaults before := by
    rw [mem_setDefaults]
    exact fun present => present.elim fresh (notMem_empty _)
  have split : before ++ newest :: after = before ++ [newest] ++ after := by simp
  rw [split, setDefaults_append, setDefaults_of_present]
  · rw [setDefaults_append]
    change ((setDefaults before ∅).setDefault newest.1 newest.2).entries.getLast? = _
    rw [setDefault, if_neg absent, entries_set_of_notMem absent, List.getLast?_append]
    rfl
  · intro entry member
    rw [mem_setDefaults, List.keys_append, List.mem_append]
    left
    rcases known entry member with same | old
    · exact Or.inr (by simp [same])
    · exact Or.inl old

omit [DecidableEq α] in
theorem notMem_of_entries_append {dict : AList β} {entries : List (Sigma β)} {entry : Sigma β}
    (nodup : (dict.entries ++ entry :: entries).NodupKeys) : entry.1 ∉ dict := by
  rw [List.NodupKeys, List.keys_append, List.keys_cons] at nodup
  intro present
  exact (List.nodup_append.mp nodup).2.2 entry.1 (mem_keys.mp present) entry.1
    List.mem_cons_self rfl

theorem entries_erase_sublist (key : α) (dict : AList β) :
    (dict.erase key).entries.Sublist dict.entries :=
  List.kerase_sublist key dict.entries

/-! ## Other values -/

/-- The values through a function, under the same keys. -/
def mapValues {γ δ : Type*} (f : γ → δ) (dict : AList fun _ : α => γ) : AList fun _ : α => δ where
  entries := dict.entries.map fun entry => ⟨entry.1, f entry.2⟩
  nodupKeys := by
    rw [List.NodupKeys, List.keys, List.map_map]
    exact dict.nodupKeys

theorem lookup_mapValues {γ δ : Type*} (f : γ → δ) (dict : AList fun _ : α => γ) (key : α) :
    (dict.mapValues f).lookup key = (dict.lookup key).map f := by
  obtain ⟨entries, nodup⟩ := dict
  change (entries.map fun entry => (⟨entry.1, f entry.2⟩ : Σ _ : α, δ)).dlookup key =
    (entries.dlookup key).map f
  clear nodup
  induction entries with
  | nil => rfl
  | cons entry entries ih =>
      obtain ⟨head, value⟩ := entry
      rw [List.map_cons]
      by_cases same : key = head
      · subst same
        rw [List.dlookup_cons_eq, List.dlookup_cons_eq]
        rfl
      · rw [List.dlookup_cons_ne _ _ same, List.dlookup_cons_ne _ _ same, ih]

/-! ## Writing over -/

/-- Write the entries of another dictionary over those that are there. -/
def update (dict other : AList β) : AList β :=
  other.entries.foldl (fun dict entry => dict.set entry.1 entry.2) dict

theorem lookup_foldl_set {entries : List (Sigma β)} (nodup : entries.NodupKeys) (key : α)
    (dict : AList β) :
    (entries.foldl (fun dict entry => dict.set entry.1 entry.2) dict).lookup key =
      (entries.dlookup key).or (dict.lookup key) := by
  induction entries generalizing dict with
  | nil => rfl
  | cons entry entries ih =>
      obtain ⟨head, value⟩ := entry
      rw [List.nodupKeys_cons] at nodup
      rw [List.foldl_cons, ih nodup.2]
      by_cases same : key = head
      · subst same
        rw [lookup_set, List.dlookup_cons_eq, List.dlookup_eq_none.mpr nodup.1]
        rfl
      · rw [lookup_set_ne same, List.dlookup_cons_ne _ _ same]

theorem lookup_update {dict other : AList β} (key : α) :
    (dict.update other).lookup key = (other.lookup key).or (dict.lookup key) :=
  lookup_foldl_set other.nodupKeys key dict

theorem lookup_foldl_update {γ : Type*} (read : γ → AList β) (items : List γ) (key : α)
    (dict : AList β) :
    (items.foldl (fun dict item => dict.update (read item)) dict).lookup key =
      (items.reverse.findSome? fun item => (read item).lookup key).or (dict.lookup key) := by
  induction items generalizing dict with
  | nil => rfl
  | cons item items ih =>
      rw [List.foldl_cons, ih, lookup_update, List.reverse_cons, List.findSome?_append]
      cases List.findSome? (fun item => (read item).lookup key) items.reverse with
      | some value => rfl
      | none => cases found : (read item).lookup key <;> simp [found]

theorem lookup_foldl_modify {γ : Type*} {keys : List α} (nodup : keys.Nodup)
    (value : α → Option γ → γ) (key : α) (dict : AList fun _ : α => γ) :
    (keys.foldl (fun dict key => dict.set key (value key (dict.lookup key))) dict).lookup key =
      if key ∈ keys then some (value key (dict.lookup key)) else dict.lookup key := by
  induction keys generalizing dict with
  | nil => rfl
  | cons head keys ih =>
      obtain ⟨fresh, nodup⟩ := List.nodup_cons.mp nodup
      rw [List.foldl_cons, ih nodup]
      by_cases same : key = head
      · subst same
        simp [fresh]
      · simp [same]

end AList

/-- A dictionary whose entries are listed in the order their keys were first written. -/
abbrev Dict (κ α : Type*) := AList fun _ : κ => α

/-- A set of keys.  Its listing order is bookkeeping only: a reader that iterates over a set must
allow for every order. -/
abbrev KeySet (κ : Type*) := Dict κ Unit

namespace AList

variable {κ : Type*} [DecidableEq κ]

/-- Put a key into a set. -/
def add (key : κ) (keys : KeySet κ) : KeySet κ :=
  keys.set key ()

@[simp]
theorem mem_add {key other : κ} {keys : KeySet κ} :
    other ∈ keys.add key ↔ other = key ∨ other ∈ keys := by
  simp [add]

/-- Put every key of a list into a set. -/
def addAll (added : List κ) (keys : KeySet κ) : KeySet κ :=
  added.foldl (fun keys key => keys.add key) keys

@[simp]
theorem mem_addAll {added : List κ} {other : κ} {keys : KeySet κ} :
    other ∈ keys.addAll added ↔ other ∈ added ∨ other ∈ keys := by
  induction added generalizing keys with
  | nil => simp [addAll]
  | cons key added ih =>
      change other ∈ (keys.add key).addAll added ↔ _
      rw [ih, mem_add, List.mem_cons]
      tauto

end AList
