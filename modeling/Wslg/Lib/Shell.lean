import Mathlib.Data.List.TakeWhile
import Mathlib.Tactic.Common
/-!
# Words of a shell command

How a POSIX shell reads a line as one simple command: the line is cut into words
at blanks, and quotes and backslashes are removed. Only literal words are read;
where the shell would expand something, run something else or wait for more,
there is no answer.
-/

namespace Lib.Shell

/-! ## Characters -/

def newline : UInt8 := 0x0A
def dquote : UInt8 := 0x22
def dollar : UInt8 := 0x24
def squote : UInt8 := 0x27
def backslash : UInt8 := 0x5C
def backquote : UInt8 := 0x60

def isBlank (c : UInt8) : Bool := c = 0x20 ∨ c = 0x09

def isNameStart (c : UInt8) : Bool := (0x41 ≤ c ∧ c ≤ 0x5A) ∨ (0x61 ≤ c ∧ c ≤ 0x7A) ∨ c = 0x5F

/-- `@`, `*`, `#`, `?`, `-`, `$` and `!` -/
def isSpecialParameter (c : UInt8) : Bool := c ∈ [0x40, 0x2A, 0x23, 0x3F, 0x2D, 0x24, 0x21]

/-- What may follow a `$` that is not just a character: a name, a number, a
special parameter, `{` or `(`. -/
def startsExpansion : List UInt8 → Bool
  | [] => false
  | c :: _ => isNameStart c || (0x30 ≤ c && c ≤ 0x39) || isSpecialParameter c || c == 0x7B || c == 0x28

/-- In double quotes a backslash is removed in front of these, and of a newline. -/
def escapable (c : UInt8) : Bool := c = dollar ∨ c = backquote ∨ c = dquote ∨ c = backslash

/-- What can mean something outside quotes: operators and the newline,
expansions, patterns, comments and assignments. -/
def special (c : UInt8) : Bool :=
  c ∈ [newline, dollar, backquote, 0x7C, 0x26, 0x3B, 0x3C, 0x3E, 0x28, 0x29, 0x2A, 0x3F, 0x5B, 0x23, 0x7E, 0x3D]

/-! ## One word -/

inductive Mode where
  | bare
  | double
  | single

/-- Put a character in front of a word that was read. -/
def push (c : UInt8) (r : Option (List UInt8 × List UInt8)) : Option (List UInt8 × List UInt8) :=
  r.map fun r => (c :: r.1, r.2)

/-- The rest of a word, and what follows it. -/
def scan : Mode → List UInt8 → Option (List UInt8 × List UInt8)
  | .bare, [] => some ([], [])
  | _, [] => none
  | .bare, c :: cs =>
    if isBlank c then some ([], c :: cs)
    else if c = dquote then scan .double cs
    else if c = squote then scan .single cs
    else if c = backslash then
      match cs with
      | [] => none
      | d :: ds => if d = newline then scan .bare ds else push d (scan .bare ds)
    else if special c then none
    else push c (scan .bare cs)
  | .double, c :: cs =>
    if c = dquote then scan .bare cs
    else if c = backquote then none
    else if c = dollar ∧ startsExpansion cs then none
    else if c = backslash then
      match cs with
      | [] => none
      | d :: ds =>
        if d = newline then scan .double ds
        else if escapable d then push d (scan .double ds)
        else push c (scan .double (d :: ds))
    else push c (scan .double cs)
  | .single, c :: cs => if c = squote then scan .bare cs else push c (scan .single cs)

/-- Up to `n` words; a line that has more is not read. -/
def wordsUpTo : ℕ → List UInt8 → Option (List (List UInt8))
  | n, line =>
    match line.dropWhile isBlank, n with
    | [], _ => some []
    | _, 0 => none
    | c :: cs, n + 1 => do
      let (word, rest) ← scan .bare (c :: cs)
      let words ← wordsUpTo n rest
      return word :: words

/-- All words of a line. -/
def words (line : List UInt8) : Option (List (List UInt8)) := wordsUpTo line.length line

/-! ## What quotes cost

Quotes and backslashes are removed, so a word that is as long as what it was read
from had none. -/

theorem push_eq_some {c : UInt8} {r : Option (List UInt8 × List UInt8)} {w rest : List UInt8} :
    push c r = some (w, rest) ↔ ∃ v, w = c :: v ∧ r = some (v, rest) := by
  simp only [push, Option.map_eq_some_iff, Prod.mk.injEq, Prod.exists]
  constructor
  · rintro ⟨v, _, hr, rfl, rfl⟩
    exact ⟨v, rfl, hr⟩
  · rintro ⟨v, rfl, hr⟩
    exact ⟨v, rest, hr, rfl, rfl⟩

/-- The quote that is still to come. -/
def Mode.closing : Mode → ℕ
  | .bare => 0
  | _ => 1

theorem push_length {c : UInt8} {cs : List UInt8} {m : Mode}
    (ih : ∀ w rest, scan m cs = some (w, rest) → w.length + rest.length + m.closing ≤ cs.length) {w rest : List UInt8}
    (h : push c (scan m cs) = some (w, rest)) : w.length + rest.length + m.closing ≤ cs.length + 1 := by
  obtain ⟨v, rfl, hv⟩ := push_eq_some.1 h
  have hlen := ih v rest hv
  rw [List.length_cons]
  omega

/-- By induction on the scan: a word is no longer than what it is read from, and a closing quote is lost. -/
theorem scan_length {m : Mode} {s w rest : List UInt8} (h : scan m s = some (w, rest)) :
    w.length + rest.length + m.closing ≤ s.length := by
  fun_induction scan m s generalizing w rest
  -- the end of the word
  case case1 | case3 => cases h; simp [Mode.closing]
  -- nothing is read
  case case2 | case6 | case9 | case12 | case13 | case14 => cases h
  -- a character is removed
  case case4 _ _ ih | case5 _ _ _ ih | case11 _ ih | case19 _ ih =>
    have hlen := ih h
    simp only [Mode.closing, List.length_cons] at hlen ⊢
    omega
  case case7 _ _ _ _ ih | case15 _ _ _ _ ih =>
    have hlen := ih h
    simp only [List.length_cons]
    omega
  -- a character is kept
  case case10 ih | case17 ih | case18 ih | case20 ih => exact push_length (fun _ _ => ih) h
  -- one is removed and the next kept
  case case8 ih | case16 ih =>
    have hlen := push_length (fun _ _ => ih) h
    simp only [List.length_cons]
    omega

/-- A word of which nothing was removed has no double quote. -/
theorem dquote_not_mem {s w rest : List UInt8} (h : scan .bare s = some (w, rest))
    (hl : s.length ≤ w.length + rest.length) : dquote ∉ w := by
  induction s generalizing w with
  | nil =>
    rw [scan] at h
    cases h
    simp
  | cons c cs ih =>
    rw [List.length_cons] at hl
    rw [scan.eq_def] at h
    dsimp only at h
    split at h
    · cases h
      simp
    split at h
    -- a quote or a backslash would make it shorter
    · have hlen := scan_length h
      simp only [Mode.closing] at hlen
      omega
    split at h
    · have hlen := scan_length h
      simp only [Mode.closing] at hlen
      omega
    split at h
    · rcases cs with _ | ⟨d, ds⟩
      · cases h
      dsimp only at h
      rw [List.length_cons] at hl
      split at h
      · have hlen := scan_length h
        omega
      · have hlen := push_length (fun _ _ => scan_length) h
        omega
    split at h
    · cases h
    · rename_i hquote _ _ _
      obtain ⟨v, rfl, hv⟩ := push_eq_some.1 h
      rw [List.length_cons] at hl
      have hmem := ih hv (by omega)
      simp only [List.mem_cons, not_or]
      exact ⟨fun he => hquote he.symm, hmem⟩

/-! ## Double quotes -/

/-- A backslash in double quotes means something in front of these; at the end it
stands in front of the closing quote. -/
def escapesNext : List UInt8 → Bool
  | [] => true
  | d :: _ => d = newline ∨ escapable d

/-- Between double quotes every character stands for itself. -/
def inert : List UInt8 → Bool
  | [] => true
  | c :: cs => (c ≠ dquote ∧ c ≠ backquote ∧ ¬ (c = dollar ∧ startsExpansion cs) ∧ ¬ (c = backslash ∧ escapesNext cs)) &&
      inert cs

theorem startsExpansion_append (cs : List UInt8) : startsExpansion (cs ++ [dquote]) = startsExpansion cs := by
  cases cs with
  | nil => decide
  | cons c cs => rfl

theorem inert_cons {c : UInt8} {cs : List UInt8} (hquote : c ≠ dquote) (hback : c ≠ backquote)
    (hdollar : ¬ (c = dollar ∧ startsExpansion cs)) (hslash : ¬ (c = backslash ∧ escapesNext cs)) :
    inert (c :: cs) = inert cs := by
  simp [inert, hquote, hback, hdollar, hslash]

/-- What a backslash in front of `cs` and the closing quote meets. -/
theorem append_dquote (cs : List UInt8) : ∃ d ds, cs ++ [dquote] = d :: ds ∧
    (escapesNext cs = true ↔ d = newline ∨ escapable d) ∧ ds.length = cs.length := by
  cases cs with
  | nil => exact ⟨dquote, [], rfl, by decide, rfl⟩
  | cons d ds => exact ⟨d, ds ++ [dquote], rfl, by simp [escapesNext], by simp⟩

/-- What is put in double quotes is read as it is exactly if it is inert. -/
theorem scan_double_iff {p rest : List UInt8} :
    scan .double (p ++ [dquote]) = some (p, rest) ↔ inert p ∧ rest = [] := by
  induction p with
  | nil =>
    have hread : scan .double [dquote] = some ([], []) := by decide
    simp [hread, inert, eq_comm]
  | cons c cs ih =>
    have hpush : push c (scan .double (cs ++ [dquote])) = some (c :: cs, rest) ↔ inert cs ∧ rest = [] := by
      rw [push_eq_some, ← ih]
      simp
    rw [List.cons_append, scan.eq_def]
    dsimp only
    rw [startsExpansion_append]
    by_cases hquote : c = dquote
    · -- the word goes on outside the quotes, and has lost two
      rw [if_pos hquote]
      refine iff_of_false (fun h => ?_) (by simp [inert, hquote])
      have hlen := scan_length h
      refine dquote_not_mem h ?_ (by simp [hquote])
      simp only [List.length_append, List.length_cons, List.length_nil]
      omega
    rw [if_neg hquote]
    by_cases hback : c = backquote
    · rw [if_pos hback]
      simp [inert, hback]
    rw [if_neg hback]
    by_cases hdollar : c = dollar ∧ startsExpansion cs = true
    · rw [if_pos hdollar]
      simp [inert, hdollar]
    rw [if_neg hdollar]
    by_cases hslash : c = backslash
    · obtain ⟨d, ds, hcs, hesc, hlen⟩ := append_dquote cs
      rw [if_pos hslash]
      rw [hcs] at hpush ⊢
      dsimp only
      by_cases hnext : escapesNext cs = true
      · -- the backslash is lost
        refine iff_of_false (fun h => ?_) (by simp [inert, hslash, hnext])
        split at h
        · have hshort := scan_length h
          simp only [Mode.closing, List.length_cons] at hshort
          omega
        · rename_i hne
          rw [if_pos ((hesc.1 hnext).resolve_left hne)] at h
          obtain ⟨v, hv, hr⟩ := push_eq_some.1 h
          obtain ⟨-, rfl⟩ := List.cons.inj hv
          have hshort := scan_length hr
          simp only [Mode.closing] at hshort
          omega
      · rw [if_neg (fun h => hnext (hesc.2 (.inl h))), if_neg (fun h => hnext (hesc.2 (.inr h))), hpush,
          inert_cons hquote hback hdollar fun h => hnext h.2]
    · rw [if_neg hslash, hpush, inert_cons hquote hback hdollar fun h => hslash h.1]

/-! ## Whole lines -/

/-- A character that means nothing outside quotes. -/
def plain (c : UInt8) : Bool := !isBlank c && !special c && c ≠ dquote && c ≠ squote && c ≠ backslash

theorem scan_plain {w : List UInt8} (hw : w.all plain) {b : UInt8} (hb : isBlank b = true) (rest : List UInt8) :
    scan .bare (w ++ b :: rest) = some (w, b :: rest) := by
  induction w with
  | nil =>
    rw [List.nil_append, scan.eq_def]
    exact if_pos hb
  | cons c cs ih =>
    rw [List.all_cons, Bool.and_eq_true] at hw
    obtain ⟨hc, hcs⟩ := hw
    simp only [plain, Bool.and_eq_true, Bool.not_eq_true', decide_eq_true_eq] at hc
    obtain ⟨⟨⟨⟨hblank, hspecial⟩, hquote⟩, hsquote⟩, hslash⟩ := hc
    rw [List.cons_append, scan.eq_def]
    dsimp only
    rw [if_neg (by simp [hblank]), if_neg hquote, if_neg hsquote, if_neg hslash, if_neg (by simp [hspecial]), ih hcs]
    rfl

theorem wordsUpTo_blanks {n : ℕ} {line : List UInt8} (h : line.all isBlank) : wordsUpTo n line = some [] := by
  rw [wordsUpTo.eq_def]
  dsimp only
  rw [List.dropWhile_eq_nil_iff.2 (by simpa using h)]

theorem wordsUpTo_blank {n : ℕ} {b : UInt8} (hb : isBlank b = true) (line : List UInt8) :
    wordsUpTo n (b :: line) = wordsUpTo n line := by
  rw [wordsUpTo.eq_def, wordsUpTo.eq_def n line]
  dsimp only
  rw [List.dropWhile_cons_of_pos hb]

theorem wordsUpTo_succ {n : ℕ} {c : UInt8} (hc : isBlank c = false) {cs w : List UInt8} {ws : List (List UInt8)} :
    wordsUpTo (n + 1) (c :: cs) = some (w :: ws) ↔
      ∃ rest, scan .bare (c :: cs) = some (w, rest) ∧ wordsUpTo n rest = some ws := by
  rw [wordsUpTo.eq_def]
  dsimp only
  rw [List.dropWhile_cons_of_neg (by simp [hc])]
  simp only [Option.bind_eq_bind, Option.bind_eq_some_iff, Prod.exists, Option.pure_def, Option.some.injEq, List.cons.injEq]
  constructor
  · rintro ⟨_, rest, hscan, _, hrest, rfl, rfl⟩
    exact ⟨rest, hscan, hrest⟩
  · rintro ⟨rest, hscan, hrest⟩
    exact ⟨w, rest, hscan, ws, hrest, rfl, rfl⟩

/-- A plain word in front of others. -/
theorem wordsUpTo_plain {n : ℕ} {c : UInt8} {cs : List UInt8} (hw : (c :: cs).all plain) {b : UInt8} (hb : isBlank b = true)
    {line w : List UInt8} {ws : List (List UInt8)} :
    wordsUpTo (n + 1) (c :: cs ++ b :: line) = some (w :: ws) ↔ w = c :: cs ∧ wordsUpTo n line = some ws := by
  have hblank : isBlank c = false := by
    simp only [List.all_cons, plain, Bool.and_eq_true, Bool.not_eq_true'] at hw
    exact hw.1.1.1.1.1
  have hscan := scan_plain hw hb line
  rw [List.cons_append] at hscan ⊢
  rw [wordsUpTo_succ hblank, hscan, ← wordsUpTo_blank hb line]
  simp [eq_comm, and_assoc]

/-- A last word in double quotes. -/
theorem wordsUpTo_double {n : ℕ} {p : List UInt8} :
    wordsUpTo (n + 1) (dquote :: (p ++ [dquote])) = some [p] ↔ inert p := by
  have hbare : scan .bare (dquote :: (p ++ [dquote])) = scan .double (p ++ [dquote]) := by
    rw [scan.eq_def .bare]
    dsimp only
    rw [if_neg (by decide), if_pos rfl]
  rw [wordsUpTo_succ (by decide), hbare]
  simp only [scan_double_iff]
  constructor
  · rintro ⟨rest, ⟨hp, -⟩, -⟩
    exact hp
  · intro hp
    exact ⟨[], ⟨hp, rfl⟩, wordsUpTo_blanks rfl⟩

end Lib.Shell
