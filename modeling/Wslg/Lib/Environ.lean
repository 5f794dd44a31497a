import Mathlib.Data.List.TakeWhile
import Mathlib.Tactic.Common
/-!
# Environments

An environment is a list of entries `NAME=VALUE`, over any characters and any `eq`
between the two. Names may occur more than once: the first entry is the one that is
found, and a new program may find another one.
-/

namespace Lib.Environ

variable {α : Type} (eq : α)

def entry (name value : List α) : List α := name ++ eq :: value

@[simp] theorem drop_entry {eq : α} (name value : List α) : (entry eq name value).drop (name.length + 1) = value := by
  simp [entry]

/-- An entry with a name. -/
def NameValue (e : List α) : Prop := ∃ name value, name ≠ [] ∧ eq ∉ name ∧ e = entry eq name value

theorem nameValue_iff {eq : α} {e : List α} : NameValue eq e ↔ eq ∈ e ∧ e.head? ≠ some eq := by
  constructor
  · rintro ⟨name, value, hne, hmem, rfl⟩
    refine ⟨List.mem_append_right _ List.mem_cons_self, fun h => ?_⟩
    cases name with
    | nil => exact hne rfl
    | cons c name =>
      cases Option.some.inj h
      exact hmem List.mem_cons_self
  · rintro ⟨hmem, hhead⟩
    obtain ⟨name, value, rfl, hname⟩ := List.eq_append_cons_of_mem hmem
    refine ⟨name, value, ?_, hname, rfl⟩
    rintro rfl
    exact hhead rfl

variable [DecidableEq α]

def hasName (name e : List α) : Bool := (name ++ [eq]).isPrefixOf e

/-- All entries for a name. -/
def entriesOf (env : List (List α)) (name : List α) : List (List α) := env.filter (hasName eq name)

def getenv (env : List (List α)) (name : List α) : Option (List α) :=
  (env.find? (hasName eq name)).map (List.drop (name.length + 1))

variable {eq}

/-! ## Entries -/

instance (e : List α) : Decidable (NameValue eq e) := decidable_of_iff _ nameValue_iff.symm

theorem hasName_iff {name e : List α} : hasName eq name e = true ↔ ∃ value, e = entry eq name value := by
  unfold hasName entry
  rw [List.isPrefixOf_iff_prefix]
  constructor
  · rintro ⟨value, rfl⟩
    exact ⟨value, by simp⟩
  · rintro ⟨value, rfl⟩
    exact ⟨value, by simp⟩

/-- The name of an entry ends at the first `eq`. -/
theorem takeWhile_entry {name : List α} (h : eq ∉ name) (value : List α) :
    (entry eq name value).takeWhile (· ≠ eq) = name := by
  have hall : ∀ c ∈ name, decide (c ≠ eq) = true := fun c hc => decide_eq_true fun heq => h (heq ▸ hc)
  unfold entry
  rw [List.takeWhile_append_of_pos hall, List.takeWhile_cons_of_neg (by simp), List.append_nil]

theorem hasName_other {name name' : List α} (h : eq ∉ name) (h' : eq ∉ name') (hne : name ≠ name') (value : List α) :
    hasName eq name (entry eq name' value) = false := by
  rw [Bool.eq_false_iff]
  intro hname
  obtain ⟨value', heq⟩ := hasName_iff.1 hname
  apply hne
  rw [← takeWhile_entry h value', ← heq, takeWhile_entry h' value]

/-! ## All entries for a name -/

theorem entriesOf_append (env env' : List (List α)) (name : List α) :
    entriesOf eq (env ++ env') name = entriesOf eq env name ++ entriesOf eq env' name := List.filter_append ..

theorem entriesOf_eq_nil {env : List (List α)} {name : List α} (h : ∀ e ∈ env, hasName eq name e = false) :
    entriesOf eq env name = [] := by
  unfold entriesOf
  rw [List.filter_eq_nil_iff]
  intro e he
  rw [h e he]
  exact Bool.false_ne_true

/-- What is found is the first entry. -/
theorem getenv_eq_some {env : List (List α)} {name value : List α} (h : getenv eq env name = some value) :
    ∃ rest, entriesOf eq env name = entry eq name value :: rest := by
  unfold getenv at h
  rw [← List.head?_filter, Option.map_eq_some_iff] at h
  obtain ⟨e, he, hvalue⟩ := h
  obtain ⟨rest, hrest⟩ := List.head?_eq_some_iff.1 he
  have hname : hasName eq name e = true := (List.mem_filter.1 (List.mem_of_mem_head? he)).2
  obtain ⟨value', rfl⟩ := hasName_iff.1 hname
  refine ⟨rest, ?_⟩
  rw [entriesOf, hrest, ← hvalue]
  simp [entry]

theorem getenv_eq_none {env : List (List α)} {name : List α} : getenv eq env name = none ↔ entriesOf eq env name = [] := by
  unfold getenv entriesOf
  rw [Option.map_eq_none_iff, ← List.head?_filter, List.head?_eq_none_iff]

/-! ## Defaults -/

/-- One entry, with the value that was set or else the default. -/
def Settled (eq : α) (env env' : List (List α)) (name default : List α) : Prop :=
  entriesOf eq env' name = [entry eq name ((getenv eq env name).getD default)]

instance (env env' : List (List α)) (name default : List α) : Decidable (Settled eq env env' name default) :=
  inferInstanceAs (Decidable (_ = _))

/-- Something settled is no longer so with another entry. -/
theorem Settled.length_le {env added : List (List α)} {name default : List α}
    (h : Settled eq env (env ++ added) name default) :
    (entriesOf eq env name).length + (entriesOf eq added name).length = 1 := by
  rw [← List.length_append, ← entriesOf_append, h]
  rfl

/-- A default that is added just if nothing is set settles it, unless it was set twice. -/
theorem settled_of_default {env added : List (List α)} {name default : List α}
    (hadded : entriesOf eq added name = if (getenv eq env name).isSome then [] else [entry eq name default])
    (h : (entriesOf eq env name).length ≤ 1) : Settled eq env (env ++ added) name default := by
  unfold Settled
  rw [entriesOf_append, hadded]
  cases hget : getenv eq env name with
  | none =>
    rw [getenv_eq_none.1 hget]
    rfl
  | some value =>
    obtain ⟨rest, hrest⟩ := getenv_eq_some hget
    rw [hrest, List.length_cons] at h
    have hnil : rest = [] := List.length_eq_zero_iff.1 (by omega)
    rw [hrest, hnil]
    rfl

/-! ## Setting -/

/-- The first entry for the name is replaced, if asked to; without one a new entry is added. -/
def setenv (eq : α) (name value : List α) (overwrite : Bool) : List (List α) → List (List α)
  | [] => [entry eq name value]
  | e :: env =>
    if hasName eq name e then (if overwrite then entry eq name value else e) :: env
    else e :: setenv eq name value overwrite env

def unsetenv (eq : α) (env : List (List α)) (name : List α) : List (List α) := env.filter (fun e => !hasName eq name e)

section Setting

variable {env : List (List α)} {name name' value : List α} {overwrite : Bool}

theorem getenv_cons (e : List α) : getenv eq (e :: env) name =
    if hasName eq name e then some (e.drop (name.length + 1)) else getenv eq env name := by
  unfold getenv
  by_cases h : hasName eq name e <;> simp [h]

@[simp] theorem hasName_entry (name value : List α) : hasName eq name (entry eq name value) = true :=
  hasName_iff.2 ⟨value, rfl⟩

theorem getenv_setenv_self : getenv eq (setenv eq name value overwrite env) name =
    some (if overwrite then value else (getenv eq env name).getD value) := by
  induction env with
  | nil => cases overwrite <;> simp [setenv, getenv]
  | cons e env ih =>
    unfold setenv
    by_cases h : hasName eq name e
    · cases overwrite <;> simp [h, getenv_cons]
    · simp [h, getenv_cons, ih]

theorem getenv_setenv_other (h : eq ∉ name) (h' : eq ∉ name') (hne : name' ≠ name) :
    getenv eq (setenv eq name value overwrite env) name' = getenv eq env name' := by
  have hother : hasName eq name' (entry eq name value) = false := hasName_other h' h hne value
  induction env with
  | nil => simp [setenv, getenv, hother]
  | cons e env ih =>
    unfold setenv
    by_cases he : hasName eq name e
    -- an entry has one name only
    · obtain ⟨v, rfl⟩ := hasName_iff.1 he
      have hold : hasName eq name' (entry eq name v) = false := hasName_other h' h hne v
      cases overwrite <;> simp [getenv_cons, hold, hother]
    · simp [he, getenv_cons, ih]

theorem getenv_setenv (h : eq ∉ name) (h' : eq ∉ name') : getenv eq (setenv eq name value overwrite env) name' =
    if name' = name then some (if overwrite then value else (getenv eq env name).getD value) else getenv eq env name' := by
  by_cases hne : name' = name
  · rw [if_pos hne, hne, getenv_setenv_self]
  · rw [if_neg hne, getenv_setenv_other h h' hne]

theorem getenv_unsetenv (h : eq ∉ name) (h' : eq ∉ name') :
    getenv eq (unsetenv eq env name) name' = if name' = name then none else getenv eq env name' := by
  unfold getenv unsetenv
  rw [List.find?_filter]
  by_cases hne : name' = name
  · subst hne
    simp
  · rw [if_neg hne]
    congr 2
    funext e
    by_cases he : hasName eq name' e
    · obtain ⟨v, rfl⟩ := hasName_iff.1 he
      simp [hasName_other h h' (Ne.symm hne) v]
    · simp [he]

/-- A name, a value, and whether it replaces one that is there. -/
abbrev Assignment (α : Type) := List α × List α × Bool

def setAll (eq : α) (assignments : List (Assignment α)) (env : List (List α)) : List (List α) :=
  assignments.foldl (fun env c => setenv eq c.1 c.2.1 c.2.2 env) env

/-- What an assignment makes of the value. -/
def Assignment.apply (c : Assignment α) (old : Option (List α)) : Option (List α) :=
  some (if c.2.2 then c.2.1 else old.getD c.2.1)

/-- The assignments of a name alone decide about its value. -/
theorem getenv_setAll {assignments : List (Assignment α)} (h : ∀ c ∈ assignments, eq ∉ c.1) (h' : eq ∉ name) :
    getenv eq (setAll eq assignments env) name =
      (assignments.filter (fun c => c.1 = name)).foldl (fun old c => c.apply old) (getenv eq env name) := by
  induction assignments generalizing env with
  | nil => rfl
  | cons c assignments ih =>
    obtain ⟨hc, hcs⟩ := List.forall_mem_cons.1 h
    rw [setAll, List.foldl_cons]
    refine (ih hcs).trans ?_
    rw [getenv_setenv hc h']
    by_cases hname : c.1 = name
    · rw [if_pos hname.symm, List.filter_cons_of_pos (by simpa using hname), List.foldl_cons, hname]
      rfl
    · rw [if_neg (Ne.symm hname), List.filter_cons_of_neg (by simpa using hname)]

omit [DecidableEq α] in
/-- Assignments that replace leave the last value. -/
theorem foldl_replacing {assignments : List (Assignment α)} (h : ∀ c ∈ assignments, c.2.2 = true) (old : Option (List α)) :
    assignments.foldl (fun old c => c.apply old) old = ((assignments.map (·.2.1)).getLast?).or old := by
  induction assignments generalizing old with
  | nil => rfl
  | cons c assignments ih =>
    obtain ⟨hc, hcs⟩ := List.forall_mem_cons.1 h
    rw [List.foldl_cons, ih hcs, Assignment.apply, hc, List.map_cons, List.getLast?_cons]
    cases (assignments.map (·.2.1)).getLast? <;> rfl

end Setting

end Lib.Environ
