/-
  Bindings that were made one after the other.

  What such bindings hold of a name is what was last bound to it.  Where all that was bound agrees
  with one assignment, so do the bindings, and it does not matter which binding was the last.
-/
import Mathlib.Data.List.Induction
import Mathlib.Data.List.Nodup
import Tabletop.Bindings
import Tabletop.Proofs.Names

namespace Tabletop.Bindings

variable {α : Type}

/-- What is inserted is found under its name, and all else as before. -/
theorem get?_insert (name : String) (value : α) (bindings : Bindings α) (key : String) :
    (bindings.insert name value).get? key =
      if key = name then some value else bindings.get? key := by
  induction bindings with
  | nil =>
    by_cases hk : key = name
    · simp [insert, get?, hk]
    · simp [insert, get?, List.lookup_cons, beq_false_of_ne hk, hk]
  | cons entry rest ih =>
    obtain ⟨first, old⟩ := entry
    rw [insert]
    by_cases hf : first = name
    · rw [if_pos hf, ← hf]
      by_cases hk : key = first
      · simp [get?, hk]
      · simp [get?, List.lookup_cons, beq_false_of_ne hk, hk]
    · rw [if_neg hf]
      by_cases hk : key = first
      · have hne : key ≠ name := by rw [hk]; exact hf
        simp [get?, hk, hf]
      · have hrest := ih
        simp only [get?] at hrest
        simp [get?, List.lookup_cons, beq_false_of_ne hk, hrest]

/-- Pair after pair bound on top of bindings. -/
def bindAll (bindings : Bindings α) (pairs : List (String × α)) : Bindings α :=
  pairs.foldl (fun bindings pair => insert pair.1 pair.2 bindings) bindings

/-- Of bindings made on top of others the last one counts, or else what was bound before. -/
theorem get?_bindAll (pairs : List (String × α)) (bindings : Bindings α) (key : String) :
    (bindAll bindings pairs).get? key = (pairs.reverse.lookup key).or (bindings.get? key) := by
  induction pairs generalizing bindings with
  | nil => rfl
  | cons entry pairs ih =>
    rw [bindAll, List.foldl_cons, ← bindAll, ih, get?_insert]
    rw [List.reverse_cons, List.lookup_append, Option.or_assoc]
    congr 1
    obtain ⟨name, value⟩ := entry
    by_cases hk : key = name
    · simp [hk]
    · simp [List.lookup_cons, beq_false_of_ne hk, hk]

/-- Of pairs with one name the last one is found. -/
theorem get?_ofPairs (pairs : List (String × α)) (key : String) :
    (ofPairs pairs).get? key = pairs.reverse.lookup key := by
  have h := get?_bindAll pairs [] key
  rw [show get? [] key = (none : Option α) from rfl, Option.or_none] at h
  exact h

theorem mem_insert {name : String} {value : α} {bindings : Bindings α} {entry : String × α}
    (h : entry ∈ bindings.insert name value) : entry = (name, value) ∨ entry ∈ bindings := by
  induction bindings with
  | nil => exact Or.inl (List.mem_singleton.mp h)
  | cons first rest ih =>
    rw [insert] at h
    split at h
    · next hf =>
      rcases List.mem_cons.mp h with rfl | h
      · exact Or.inl (by rw [hf])
      · exact Or.inr (List.mem_cons_of_mem _ h)
    · rcases List.mem_cons.mp h with rfl | h
      · exact Or.inr List.mem_cons_self
      · exact (ih h).imp_right (List.mem_cons_of_mem _)

theorem mem_bindAll {pairs : List (String × α)} :
    ∀ {bindings : Bindings α} {entry : String × α},
      entry ∈ bindAll bindings pairs → entry ∈ pairs ∨ entry ∈ bindings := by
  induction pairs with
  | nil => exact fun h => Or.inr h
  | cons pair pairs ih =>
    intro bindings entry h
    rcases ih h with h | h
    · exact Or.inl (List.mem_cons_of_mem _ h)
    · rcases mem_insert h with rfl | h
      · exact Or.inl List.mem_cons_self
      · exact Or.inr h

/-! ## Agreement -/

/-- All entries are as the assignment has it. -/
def Agree (t : String → Option α) (pairs : List (String × α)) : Prop :=
  ∀ entry ∈ pairs, t entry.1 = some entry.2

/-- Entries that agree with an assignment hold of a name among them what it holds. -/
theorem lookup_of_agree {t : String → Option α} {pairs : List (String × α)} (h : Agree t pairs)
    {entry : String × α} (hentry : entry ∈ pairs) : pairs.lookup entry.1 = some entry.2 := by
  have hfound : ∃ value, pairs.lookup entry.1 = some value ∧ (entry.1, value) ∈ pairs := by
    cases hlookup : pairs.lookup entry.1 with
    | none =>
      have hne := List.lookup_eq_none_iff.mp hlookup entry hentry
      simp at hne
    | some value => exact ⟨value, rfl, Grammar.mem_of_lookup hlookup⟩
  obtain ⟨value, hlookup, hmem⟩ := hfound
  rw [hlookup, ← h _ hmem, h _ hentry]

/-- Bindings of names in upper case that agree with an assignment give it back when their names are
    brought to upper case. -/
theorem get?_upperCased_of_agree {t : String → Option α} {pairs : List (String × α)}
    (h : Agree t pairs) (hupper : ∀ entry ∈ pairs, InUpperCase entry.1) {entry : String × α}
    (hentry : entry ∈ pairs) :
    (upperCased (bindAll [] pairs)).get? entry.1 = some entry.2 := by
  generalize hused : bindAll [] pairs = used
  have hsub : ∀ e ∈ used, e ∈ pairs := by
    intro e he
    rw [← hused] at he
    rcases mem_bindAll he with he | he
    · exact he
    · cases he
  have hagree : Agree t used.reverse := fun e he => h e (hsub e (List.mem_reverse.mp he))
  have hmem : entry ∈ used := by
    have hget := get?_bindAll pairs [] entry.1
    have hlast := lookup_of_agree (fun e he => h e (List.mem_reverse.mp he))
      (List.mem_reverse.mpr hentry)
    rw [hused, hlast] at hget
    exact Grammar.mem_of_lookup hget
  have hkeys : used.map (fun e => (Text.uppered e.1, e.2)) = used := by
    calc
      used.map (fun e => (Text.uppered e.1, e.2)) = used.map id :=
        List.map_congr_left fun e he => Prod.ext (hupper e (hsub e he)) rfl
      _ = used := List.map_id used
  rw [upperCased, hkeys, get?_ofPairs]
  exact lookup_of_agree hagree (List.mem_reverse.mpr hmem)

/-! ## Bindings put together -/

/-- The bindings of both, those of the first one before what the second one adds to them. -/
def union (first second : Bindings α) : Bindings α :=
  first ++ second.filter fun entry => !first.names.contains entry.1

/-- A name is bound just if some pair has it. -/
theorem mem_names {bindings : Bindings α} {name : String} :
    name ∈ bindings.names ↔ ∃ value, (name, value) ∈ bindings := by
  simp [names]

/-- To bind a name again to the value that it has changes nothing. -/
theorem insert_of_mem_names {t : String → Option α} {bindings : Bindings α} (h : Agree t bindings)
    {name : String} {value : α} (hvalue : t name = some value) (hmem : name ∈ bindings.names) :
    bindings.insert name value = bindings := by
  induction bindings with
  | nil => cases hmem
  | cons entry rest ih =>
    obtain ⟨key, old⟩ := entry
    have hkey : t key = some old := h (key, old) List.mem_cons_self
    rw [insert]
    split
    · next heq =>
      subst heq
      rw [hkey] at hvalue
      cases hvalue
      rfl
    · next hne =>
      have hrest : name ∈ names rest := by
        rcases List.mem_cons.mp hmem with heq | hmem
        · exact absurd heq.symm hne
        · exact hmem
      rw [ih (fun e he => h e (List.mem_cons_of_mem _ he)) hrest]

/-- A name that is not bound yet is bound at the end. -/
theorem insert_of_not_mem_names {bindings : Bindings α} {name : String} (value : α)
    (hmem : name ∉ bindings.names) : bindings.insert name value = bindings ++ [(name, value)] := by
  induction bindings with
  | nil => rfl
  | cons entry rest ih =>
    obtain ⟨key, old⟩ := entry
    have hne : name ≠ key ∧ name ∉ names rest := by simpa [names] using hmem
    rw [insert, if_neg (Ne.symm hne.1), ih hne.2, List.cons_append]

/-- A pair of a union stands in the first bindings, or in the second ones under a name that the
    first ones do not have. -/
theorem mem_union {first second : Bindings α} {name : String} {value : α} :
    (name, value) ∈ union first second ↔
      (name, value) ∈ first ∨ (name, value) ∈ second ∧ name ∉ first.names := by
  simp [union]

theorem mem_names_union {first second : Bindings α} {name : String} :
    name ∈ (union first second).names ↔ name ∈ first.names ∨ name ∈ second.names := by
  simp only [mem_names, mem_union]
  constructor
  · rintro ⟨value, h | ⟨h, -⟩⟩
    · exact Or.inl ⟨value, h⟩
    · exact Or.inr ⟨value, h⟩
  · rintro (⟨value, h⟩ | ⟨value, h⟩)
    · exact ⟨value, Or.inl h⟩
    · by_cases hfirst : ∃ old, (name, old) ∈ first
      · obtain ⟨old, hold⟩ := hfirst
        exact ⟨old, Or.inl hold⟩
      · exact ⟨value, Or.inr ⟨h, hfirst⟩⟩

/-- Bindings that agree with a table still do with one more of its values. -/
theorem Agree.insert {t : String → Option α} {bindings : Bindings α} (h : Agree t bindings)
    {name : String} {value : α} (hvalue : t name = some value) :
    Agree t (bindings.insert name value) := by
  intro entry hentry
  rcases mem_insert hentry with rfl | hentry
  · exact hvalue
  · exact h entry hentry

/-- Bindings that agree with a table still do with more of its values. -/
theorem Agree.bindAll {t : String → Option α} {bindings : Bindings α} (h : Agree t bindings)
    {pairs : List (String × α)} (hpairs : Agree t pairs) : Agree t (bindings.bindAll pairs) :=
  fun entry hentry => (mem_bindAll hentry).elim (hpairs entry) (h entry)

/-- A union agrees with a table if both of its parts do. -/
theorem Agree.union {t : String → Option α} {first second : Bindings α} (hf : Agree t first)
    (hs : Agree t second) : Agree t (first.union second) := by
  rintro ⟨name, value⟩ hentry
  rcases mem_union.mp hentry with hentry | ⟨hentry, -⟩
  · exact hf _ hentry
  · exact hs _ hentry

/-- To bind a name on top of bindings put together is to bind it on top of the second ones: it is
    known to one of them, or it is new to both. -/
theorem insert_union {t : String → Option α} {first second : Bindings α} (hf : Agree t first)
    (hs : Agree t second) {name : String} {value : α} (hvalue : t name = some value) :
    (union first second).insert name value = union first (second.insert name value) := by
  by_cases hsecond : name ∈ second.names
  · rw [insert_of_mem_names (hf.union hs) hvalue (mem_names_union.mpr (Or.inr hsecond)),
      insert_of_mem_names hs hvalue hsecond]
  · rw [insert_of_not_mem_names value hsecond]
    by_cases hfirst : name ∈ first.names
    · rw [insert_of_mem_names (hf.union hs) hvalue (mem_names_union.mpr (Or.inl hfirst))]
      simp [union, hfirst]
    · have hneither : name ∉ (union first second).names := fun hc =>
        (mem_names_union.mp hc).elim hfirst hsecond
      rw [insert_of_not_mem_names value hneither]
      simp [union, hfirst]

/-- What is bound on top of bindings, all in agreement, is put together with them. -/
theorem bindAll_eq_union {t : String → Option α} {bindings : Bindings α} (hb : Agree t bindings)
    {pairs : List (String × α)} (h : Agree t pairs) :
    bindAll bindings pairs = union bindings (bindAll [] pairs) := by
  -- From whatever was bound by some of the pairs already.
  have hfrom : ∀ (pairs : List (String × α)) (second : Bindings α), Agree t pairs →
      Agree t second →
        bindAll (union bindings second) pairs = union bindings (bindAll second pairs) := by
    intro pairs
    induction pairs with
    | nil => exact fun second _ _ => rfl
    | cons pair pairs ih =>
      intro second hpairs hs
      have hpair : t pair.1 = some pair.2 := hpairs pair List.mem_cons_self
      rw [bindAll, List.foldl_cons, ← bindAll, insert_union hb hs hpair]
      exact ih _ (fun e he => hpairs e (List.mem_cons_of_mem _ he)) (hs.insert hpair)
  have hnil : union bindings [] = bindings := List.append_nil bindings
  have hall := hfrom pairs [] h (fun e he => by cases he)
  rwa [hnil] at hall

/-! ## Bindings in another order -/

/-- To bind a name on top of bindings, all in agreement, adds its entry if it is not there. -/
theorem mem_insert_iff {t : String → Option α} {bindings : Bindings α} (h : Agree t bindings)
    {name : String} {value : α} (hvalue : t name = some value) {entry : String × α} :
    entry ∈ bindings.insert name value ↔ entry ∈ bindings ∨ entry = (name, value) := by
  refine ⟨fun hentry => (mem_insert hentry).symm, ?_⟩
  by_cases hmem : name ∈ bindings.names
  · rw [insert_of_mem_names h hvalue hmem]
    rintro (hentry | rfl)
    · exact hentry
    · obtain ⟨old, hold⟩ := mem_names.mp hmem
      have hsame : some old = some value := (h _ hold).symm.trans hvalue
      cases hsame
      exact hold
  · rw [insert_of_not_mem_names value hmem]
    simp

/-- Where all agree with one table, pairs that are bound stand beside those there were. -/
theorem mem_bindAll_iff {t : String → Option α} {pairs : List (String × α)}
    (hpairs : Agree t pairs) :
    ∀ {bindings : Bindings α}, Agree t bindings → ∀ {entry : String × α},
      entry ∈ bindings.bindAll pairs ↔ entry ∈ bindings ∨ entry ∈ pairs := by
  induction pairs with
  | nil => exact fun _ entry => by simp [bindAll]
  | cons pair pairs ih =>
    intro bindings h entry
    have hpair : t pair.1 = some pair.2 := hpairs pair List.mem_cons_self
    have hrest : Agree t pairs := fun e he => hpairs e (List.mem_cons_of_mem _ he)
    rw [bindAll, List.foldl_cons, ← bindAll, ih hrest (h.insert hpair), mem_insert_iff h hpair,
      List.mem_cons, or_assoc]

theorem nodup_names_insert {t : String → Option α} {bindings : Bindings α} (h : Agree t bindings)
    {name : String} {value : α} (hvalue : t name = some value) (hnodup : bindings.names.Nodup) :
    (bindings.insert name value).names.Nodup := by
  by_cases hmem : name ∈ bindings.names
  · rw [insert_of_mem_names h hvalue hmem]
    exact hnodup
  · rw [insert_of_not_mem_names value hmem, names, List.map_append]
    refine List.nodup_append.mpr ⟨hnodup, by simp, ?_⟩
    rintro key hkey other hother rfl
    obtain rfl : key = name := List.mem_singleton.mp hother
    exact hmem hkey

/-- Binding pairs one after the other names nothing twice: induction on the pairs. -/
theorem nodup_names_bindAll {t : String → Option α} {pairs : List (String × α)}
    (hpairs : Agree t pairs) :
    ∀ {bindings : Bindings α}, Agree t bindings → bindings.names.Nodup →
      (bindings.bindAll pairs).names.Nodup := by
  induction pairs with
  | nil => exact fun _ hnodup => hnodup
  | cons pair pairs ih =>
    intro bindings h hnodup
    have hpair : t pair.1 = some pair.2 := hpairs pair List.mem_cons_self
    exact ih (fun e he => hpairs e (List.mem_cons_of_mem _ he)) (h.insert hpair)
      (nodup_names_insert h hpair hnodup)

/-- Pairs in another order make the same bindings in some order: no name is bound twice, so that it
    is enough that both have the same entries. -/
theorem bindAll_perm {t : String → Option α} {bindings : Bindings α} (h : Agree t bindings)
    (hnodup : bindings.names.Nodup) {pairs others : List (String × α)} (hpairs : Agree t pairs)
    (hperm : pairs.Perm others) : (bindings.bindAll pairs).Perm (bindings.bindAll others) := by
  have hothers : Agree t others := fun entry hentry => hpairs entry (hperm.mem_iff.mpr hentry)
  have hfirst := List.Nodup.of_map _ (nodup_names_bindAll hpairs h hnodup)
  have hsecond := List.Nodup.of_map _ (nodup_names_bindAll hothers h hnodup)
  refine (List.perm_ext_iff_of_nodup hfirst hsecond).mpr fun entry => ?_
  rw [mem_bindAll_iff hpairs h, mem_bindAll_iff hothers h, hperm.mem_iff]

/-! ## Names in order -/

/-- A name that is bound already keeps its place. -/
theorem names_insert_of_mem {bindings : Bindings α} {name : String} (value : α)
    (hmem : name ∈ bindings.names) : (bindings.insert name value).names = bindings.names := by
  induction bindings with
  | nil => cases hmem
  | cons entry rest ih =>
    obtain ⟨key, old⟩ := entry
    rw [insert]
    split
    · rfl
    · next hne =>
      have hrest : name ∈ names rest := (List.mem_cons.mp hmem).resolve_left (Ne.symm hne)
      exact congrArg (key :: ·) (ih hrest)

/-- Without its duplicates a list has none. -/
theorem nodup_eraseDups : ∀ keys : List String, keys.eraseDups.Nodup
  | [] => by simp
  | key :: keys => by
    rw [List.eraseDups_cons, List.nodup_cons, List.mem_eraseDups]
    exact ⟨by simp, nodup_eraseDups _⟩
termination_by keys => keys.length
decreasing_by exact Nat.lt_succ_of_le (List.length_filter_le _ _)

/-- Bindings made one after the other stand in the order in which their names came first. -/
theorem names_bindAll (pairs : List (String × α)) :
    (bindAll [] pairs).names = (pairs.map (·.1)).eraseDups := by
  induction pairs using List.reverseRecOn with
  | nil => rfl
  | append_singleton pairs last ih =>
    have hlast : bindAll [] (pairs ++ [last]) = (bindAll [] pairs).insert last.1 last.2 := by
      rw [bindAll, List.foldl_append, ← bindAll]
      rfl
    rw [hlast, List.map_append, List.eraseDups_append, ← ih]
    by_cases hmem : last.1 ∈ pairs.map (·.1)
    · have hbound : last.1 ∈ (bindAll [] pairs).names := by rwa [ih, List.mem_eraseDups]
      rw [names_insert_of_mem _ hbound]
      simp [List.removeAll, hmem]
    · have hnew : last.1 ∉ (bindAll [] pairs).names := by rwa [ih, List.mem_eraseDups]
      rw [insert_of_not_mem_names _ hnew]
      simp [List.removeAll, hmem, List.eraseDups_cons, names]

/-! ## Letter case -/

theorem lookup_eq_find? (pairs : List (String × α)) (key : String) :
    pairs.lookup key = (pairs.find? (·.1 == key)).map (·.2) := by
  induction pairs with
  | nil => rfl
  | cons entry pairs ih =>
    obtain ⟨name, value⟩ := entry
    by_cases hname : name = key
    · simp [hname]
    · simp [List.lookup_cons, beq_false_of_ne hname, beq_false_of_ne (Ne.symm hname), ih]

/-- The value of the last entry that has a name, letter case aside. -/
def last? (table : Bindings α) (name : String) : Option α :=
  ((table.filter fun entry => Text.uppered entry.1 == name).getLast?).map (·.2)

/-- In the upper-cased table a name has the last value that is given to it in any letter case. -/
theorem get?_upperCased (table : Bindings α) (name : String) :
    (upperCased table).get? name = table.last? name := by
  rw [upperCased, get?_ofPairs, lookup_eq_find?, ← List.map_reverse, List.find?_map, last?,
    List.getLast?_filter, Option.map_map]
  rfl

/-- Bindings of names that are not bound twice are those that result from them. -/
theorem ofPairs_of_nodup {bindings : Bindings α} (h : bindings.names.Nodup) :
    ofPairs bindings = bindings := by
  induction bindings using List.reverseRecOn with
  | nil => rfl
  | append_singleton earlier last ih =>
    rw [names, List.map_append, List.nodup_append] at h
    have hlast : last.1 ∉ names earlier := fun hmem => h.2.2 _ hmem _ (by simp) rfl
    have hmade : ofPairs (earlier ++ [last]) = (ofPairs earlier).insert last.1 last.2 := by
      rw [ofPairs, List.foldl_append]
      rfl
    rw [hmade, ih h.1, insert_of_not_mem_names last.2 hlast]

/-- Names that are in upper case are not changed again. -/
theorem upperCased_upperCased {bindings : Bindings α}
    (h : ∀ entry ∈ bindings, InUpperCase (Text.uppered entry.1)) :
    upperCased (upperCased bindings) = upperCased bindings := by
  have hnames : (upperCased bindings).names.Nodup := by
    have heq := names_bindAll (bindings.map fun entry => (Text.uppered entry.1, entry.2))
    rw [bindAll, ← ofPairs, ← upperCased] at heq
    rw [heq]
    exact nodup_eraseDups _
  have hsame : ∀ entry ∈ upperCased bindings, (Text.uppered entry.1, entry.2) = entry := by
    intro entry hentry
    have hmem := (mem_bindAll hentry).resolve_right List.not_mem_nil
    obtain ⟨old, hold, rfl⟩ := List.mem_map.mp hmem
    exact Prod.ext (h old hold) rfl
  generalize upperCased bindings = made at hnames hsame
  rw [upperCased, List.map_congr_left hsame, List.map_id', ofPairs_of_nodup hnames]

end Tabletop.Bindings
