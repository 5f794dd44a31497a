import Mathlib.Data.List.Infix
import Mathlib.Data.List.TakeWhile
import Mathlib.Tactic.Common
/-!
# Command lines

A command line is cut into arguments at the separators that are not inside
quotes. An escape counts only in front of a quote: two of them make one, and if
one is left over, the quote after it is an ordinary character.
-/

namespace Lib

/-- The characters that mean something in a command line. -/
structure Quoting (α : Type) where
  sep : α → Bool
  quote : α
  esc : α
  sep_quote : sep quote = false
  sep_esc : sep esc = false
  quote_ne_esc : quote ≠ esc

namespace Quoting

variable {α : Type}

/-- Put `x` in front of an argument that is followed by more. -/
def andThen (x : List α) (r : List α × List α) : List α × List α := (x ++ r.1, r.2)

@[simp] theorem andThen_fst (x : List α) (r : List α × List α) : (andThen x r).1 = x ++ r.1 := rfl
variable [DecidableEq α] (Q : Quoting α)

/-- The argument at the start and what follows it. The scan is inside quotes if
`q`, and `k` escapes were just passed. -/
def scan (q : Bool) (k : ℕ) : List α → List α × List α
  | [] => (List.replicate k Q.esc, [])
  | c :: cs =>
    if c = Q.esc then scan q (k + 1) cs
    else if c = Q.quote then
      if k % 2 = 0 then andThen (List.replicate (k / 2) Q.esc) (scan (!q) 0 cs)
      else andThen (List.replicate (k / 2) Q.esc ++ [Q.quote]) (scan q 0 cs)
    else if Q.sep c ∧ q = false then (List.replicate k Q.esc, c :: cs)
    else andThen (List.replicate k Q.esc ++ [c]) (scan q 0 cs)

/-- The first argument and what follows it, unless there are only separators. -/
def nextArg (cmd : List α) : Option (List α × List α) :=
  match cmd.dropWhile Q.sep with
  | [] => none
  | c :: cs => some (Q.scan false 0 (c :: cs))

/-- The first `n` arguments, and what follows them as it is. -/
def takeArgs : ℕ → List α → Option (List (List α) × List α)
  | 0, cmd => some ([], cmd)
  | n + 1, cmd => do
    let (arg, rest) ← Q.nextArg cmd
    let (args, rest) ← takeArgs n rest
    return (arg :: args, rest)

variable {Q}

/-! ## One character -/

@[simp] theorem scan_esc (q : Bool) (k : ℕ) (cs : List α) : Q.scan q k (Q.esc :: cs) = Q.scan q (k + 1) cs := by
  rw [scan, if_pos rfl]

theorem scan_quote (q : Bool) (k : ℕ) (cs : List α) : Q.scan q k (Q.quote :: cs) =
    if k % 2 = 0 then andThen (List.replicate (k / 2) Q.esc) (Q.scan (!q) 0 cs)
    else andThen (List.replicate (k / 2) Q.esc ++ [Q.quote]) (Q.scan q 0 cs) := by
  rw [scan, if_neg Q.quote_ne_esc, if_pos rfl]

theorem scan_sep {c : α} (hc : Q.sep c = true) (k : ℕ) (cs : List α) :
    Q.scan false k (c :: cs) = (List.replicate k Q.esc, c :: cs) := by
  have hesc : c ≠ Q.esc := by
    rintro rfl
    exact absurd hc (by simp [Q.sep_esc])
  have hquote : c ≠ Q.quote := by
    rintro rfl
    exact absurd hc (by simp [Q.sep_quote])
  rw [scan, if_neg hesc, if_neg hquote, if_pos ⟨hc, rfl⟩]

theorem scan_char {c : α} (hesc : c ≠ Q.esc) (hquote : c ≠ Q.quote) {q : Bool} (hsep : Q.sep c = true → q = true)
    (k : ℕ) (cs : List α) : Q.scan q k (c :: cs) = andThen (List.replicate k Q.esc ++ [c]) (Q.scan q 0 cs) := by
  rw [scan, if_neg hesc, if_neg hquote, if_neg]
  rintro ⟨hs, rfl⟩
  exact absurd (hsep hs) (by decide)

@[simp] theorem nextArg_sep {s : α} (hs : Q.sep s = true) (cmd : List α) : Q.nextArg (s :: cmd) = Q.nextArg cmd := by
  rw [nextArg, List.dropWhile_cons_of_pos hs, nextArg]

theorem nextArg_char {c : α} (hc : Q.sep c = false) (cmd : List α) :
    Q.nextArg (c :: cmd) = some (Q.scan false 0 (c :: cmd)) := by
  rw [nextArg, List.dropWhile_cons_of_neg (by simp [hc])]

theorem takeArgs_succ {n : ℕ} {cmd x rest : List α} {xs : List (List α)} :
    Q.takeArgs (n + 1) cmd = some (x :: xs, rest) ↔
      ∃ r, Q.nextArg cmd = some (x, r) ∧ Q.takeArgs n r = some (xs, rest) := by
  simp only [takeArgs, Option.bind_eq_bind, Option.bind_eq_some_iff, Prod.exists, Option.pure_def, Option.some.injEq,
    Prod.mk.injEq, List.cons.injEq]
  constructor
  · rintro ⟨_, r, hnext, _, _, hrest, ⟨rfl, rfl⟩, rfl⟩
    exact ⟨r, hnext, hrest⟩
  · rintro ⟨r, hnext, hrest⟩
    exact ⟨x, r, hnext, xs, rest, hrest, ⟨rfl, rfl⟩, rfl⟩

/-- If an argument is read as `x` exactly under `P`, so are the arguments from it on. -/
theorem takeArgs_iff {P : Prop} {n : ℕ} {cmd cmd' x rest : List α} {xs : List (List α)}
    (h : ∀ r, Q.nextArg cmd = some (x, r) ↔ P ∧ r = cmd') :
    Q.takeArgs (n + 1) cmd = some (x :: xs, rest) ↔ P ∧ Q.takeArgs n cmd' = some (xs, rest) := by
  rw [takeArgs_succ]
  constructor
  · rintro ⟨r, hnext, hrest⟩
    obtain ⟨hP, rfl⟩ := (h r).1 hnext
    exact ⟨hP, hrest⟩
  · rintro ⟨hP, hrest⟩
    exact ⟨cmd', (h cmd').2 ⟨hP, rfl⟩, hrest⟩

theorem takeArgs_next {n : ℕ} {cmd cmd' x rest : List α} {xs : List (List α)} (h : Q.nextArg cmd = some (x, cmd')) :
    Q.takeArgs (n + 1) cmd = some (x :: xs, rest) ↔ Q.takeArgs n cmd' = some (xs, rest) := by
  have hnext : ∀ r, Q.nextArg cmd = some (x, r) ↔ True ∧ r = cmd' := fun r => by simp [h, eq_comm]
  rw [takeArgs_iff hnext, true_and]

/-! ## What an argument is read from -/

variable (Q) in
/-- A character without a meaning. -/
def plain (c : α) : Bool := c ≠ Q.quote ∧ c ≠ Q.esc ∧ Q.sep c = false

variable (Q) in
/-- `arg` comes from `used`, behind `k` escapes. -/
structure Consumed (q : Bool) (k : ℕ) (used arg : List α) : Prop where
  plain : arg.filter Q.plain = used.filter Q.plain
  short : arg.length ≤ k + used.length
  shorter : Q.quote ∈ used → arg.length < k + used.length
  outside : q = false → Q.quote ∉ used → ∀ c ∈ used, Q.sep c = false

theorem plain_replicate (k : ℕ) : (List.replicate k Q.esc).filter Q.plain = [] := by
  simp [plain]

theorem plain_quote : Q.plain Q.quote = false := by
  simp [plain]

theorem consumed_nil (q : Bool) (k : ℕ) : Q.Consumed q k [] (List.replicate k Q.esc) where
  plain := plain_replicate k
  short := by simp
  shorter h := by simp at h
  outside _ _ c hc := by simp at hc

theorem Consumed.esc {q : Bool} {k : ℕ} {used arg : List α} (h : Q.Consumed q (k + 1) used arg) :
    Q.Consumed q k (Q.esc :: used) arg where
  plain := by simpa [Quoting.plain] using h.plain
  short := by
    have := h.short
    simp only [List.length_cons]
    omega
  shorter hq := by
    have := h.shorter ((List.mem_cons.1 hq).resolve_left Q.quote_ne_esc)
    simp only [List.length_cons]
    omega
  outside hq hnot := by
    simp only [List.mem_cons, not_or] at hnot
    exact List.forall_mem_cons.2 ⟨Q.sep_esc, h.outside hq hnot.2⟩

/-- A quote is longer than what it leaves. -/
theorem Consumed.quote {q q' : Bool} {k : ℕ} {x used arg : List α} (h : Q.Consumed q' 0 used arg)
    (hplain : x.filter Q.plain = []) (hx : x.length ≤ k) : Q.Consumed q k (Q.quote :: used) (x ++ arg) where
  plain := by rw [List.filter_append, hplain, List.nil_append, h.plain, List.filter_cons_of_neg (by simp [plain_quote])]
  short := by
    have := h.short
    simp only [List.length_cons, List.length_append]
    omega
  shorter _ := by
    have := h.short
    simp only [List.length_cons, List.length_append]
    omega
  outside _ hnot := absurd List.mem_cons_self hnot

theorem Consumed.char {q : Bool} {k : ℕ} {c : α} {used arg : List α} (h : Q.Consumed q 0 used arg)
    (hquote : c ≠ Q.quote) (hsep : Q.sep c = true → q = true) :
    Q.Consumed q k (c :: used) ((List.replicate k Q.esc ++ [c]) ++ arg) where
  plain := by rw [List.filter_append, List.filter_append, plain_replicate, List.nil_append, h.plain, ← List.filter_append,
    List.singleton_append]
  short := by
    have := h.short
    simp only [List.length_cons, List.length_append, List.length_replicate, List.length_nil]
    omega
  shorter hq := by
    have := h.shorter ((List.mem_cons.1 hq).resolve_left (Ne.symm hquote))
    simp only [List.length_cons, List.length_append, List.length_replicate, List.length_nil]
    omega
  outside hq hnot := by
    simp only [List.mem_cons, not_or] at hnot
    refine List.forall_mem_cons.2 ⟨?_, h.outside hq hnot.2⟩
    cases hc : Q.sep c with
    | false => rfl
    | true => exact absurd (hsep hc) (by simp [hq])

/-- The scan stops at a separator or at the end. -/
theorem exists_consumed (q : Bool) (k : ℕ) (cmd : List α) :
    ∃ used, cmd = used ++ (Q.scan q k cmd).2 ∧ Q.Consumed q k used (Q.scan q k cmd).1 ∧
      ∀ c ∈ (Q.scan q k cmd).2.head?, Q.sep c = true := by
  induction cmd generalizing q k with
  | nil => exact ⟨[], rfl, consumed_nil q k, by simp [scan]⟩
  | cons c cs ih =>
    by_cases hesc : c = Q.esc
    · subst hesc
      obtain ⟨used, hcs, hused, hstop⟩ := ih q (k + 1)
      rw [scan_esc]
      exact ⟨Q.esc :: used, congrArg _ hcs, hused.esc, hstop⟩
    by_cases hquote : c = Q.quote
    · subst hquote
      rw [scan_quote]
      split
      -- an even number of escapes: the quote opens or closes
      · obtain ⟨used, hcs, hused, hstop⟩ := ih (!q) 0
        refine ⟨Q.quote :: used, congrArg _ hcs, hused.quote (plain_replicate _) ?_, hstop⟩
        rw [List.length_replicate]
        omega
      · obtain ⟨used, hcs, hused, hstop⟩ := ih q 0
        refine ⟨Q.quote :: used, congrArg _ hcs, hused.quote ?_ ?_, hstop⟩
        · rw [List.filter_append, plain_replicate, List.filter_singleton, plain_quote]
          rfl
        · -- the escape in front of the quote is gone
          simp only [List.length_append, List.length_replicate, List.length_singleton]
          omega
    by_cases hsep : Q.sep c = true → q = true
    · obtain ⟨used, hcs, hused, hstop⟩ := ih q 0
      rw [scan_char hesc hquote hsep]
      exact ⟨c :: used, congrArg _ hcs, hused.char hquote hsep, hstop⟩
    · push Not at hsep
      obtain ⟨hc, hq⟩ := hsep
      obtain rfl : q = false := by simpa using hq
      rw [scan_sep hc]
      exact ⟨[], rfl, consumed_nil false k, by simpa using hc⟩

/-! ## Words -/

variable (Q) in
/-- It stands for itself: separators and quotes would have to be quoted. -/
def Word (x : List α) : Prop := x ≠ [] ∧ ∀ c ∈ x, Q.sep c = false ∧ c ≠ Q.quote

instance (x : List α) : Decidable (Q.Word x) := inferInstanceAs (Decidable (_ ∧ _))

theorem scan_word {x : List α} (hx : ∀ c ∈ x, Q.sep c = false ∧ c ≠ Q.quote) {s : α} (hs : Q.sep s = true) (k : ℕ)
    (t : List α) : Q.scan false k (x ++ s :: t) = (List.replicate k Q.esc ++ x, s :: t) := by
  induction x generalizing k with
  | nil =>
    rw [List.nil_append, scan_sep hs, List.append_nil]
  | cons c x ih =>
    obtain ⟨⟨hsep, hquote⟩, hx⟩ := List.forall_mem_cons.1 hx
    rw [List.cons_append]
    by_cases hesc : c = Q.esc
    · rw [hesc, scan_esc, ih hx, List.replicate_succ', List.append_assoc, List.singleton_append]
    · rw [scan_char hesc hquote (by simp [hsep]), ih hx, andThen]
      simp

theorem nextArg_word {x : List α} (hx : Q.Word x) {s : α} (hs : Q.sep s = true) (t : List α) :
    Q.nextArg (x ++ s :: t) = some (x, s :: t) := by
  obtain ⟨hne, hall⟩ := hx
  have hscan := scan_word hall hs 0 t
  cases x with
  | nil => exact absurd rfl hne
  | cons c x =>
    rw [List.cons_append] at hscan ⊢
    rw [nextArg_char (hall c List.mem_cons_self).1, hscan]
    rfl

/-- An argument that is `x` was read from `x` alone: from less it would be
shorter, from more it would have the `a` too. -/
theorem Consumed.used_eq {x used r t seps : List α} {s a : α} (h : Q.Consumed false 0 used x)
    (hcmd : x ++ s :: a :: t = seps ++ used ++ r) (hseps : ∀ c ∈ seps, Q.sep c = true)
    (hstop : ∀ c ∈ r.head?, Q.sep c = true) (ha : Q.plain a = true) : seps = [] ∧ used = x := by
  have hshort := h.short
  rcases List.append_eq_append_iff.1 hcmd with ⟨w, hw, hr⟩ | ⟨w, hw, hr⟩
  · cases w with
    | nil =>
      have hlen := congrArg List.length hw
      simp only [List.length_append, List.append_nil] at hlen
      obtain rfl : seps = [] := List.length_eq_zero_iff.1 (by omega)
      exact ⟨rfl, by simpa using hw⟩
    | cons s' w =>
      obtain ⟨-, hr⟩ := List.cons.inj hr
      cases w with
      | nil =>
        -- the scan would have stopped at `a`, which separates nothing
        obtain rfl : a :: t = r := hr
        simp [Quoting.plain, hstop a rfl] at ha
      | cons a' w =>
        -- more than `x` was read, `a` too: one plain character more than there is
        obtain ⟨rfl, -⟩ := List.cons.inj hr
        have hfilter := congrArg (List.length <| List.filter Q.plain ·) hw
        have hnone : seps.filter Q.plain = [] := List.filter_eq_nil_iff.2 fun c hc => by
          simp [Quoting.plain, hseps c hc]
        simp only [List.filter_append, hnone, List.nil_append, ← h.plain, List.length_append] at hfilter
        have hpos : 0 < ((s' :: a :: w).filter Q.plain).length :=
          List.length_pos_of_mem (List.mem_filter.2 ⟨by simp, ha⟩)
        omega
  · have hlen := congrArg List.length hw
    simp only [List.length_append] at hlen
    obtain rfl : seps = [] := List.length_eq_zero_iff.1 (by omega)
    obtain rfl : w = [] := List.length_eq_zero_iff.1 (by omega)
    exact ⟨rfl, by simpa using hw.symm⟩

/-- Between separators, only words are read as they are. -/
theorem nextArg_eq_iff {x t : List α} {s s' a : α} (hs : Q.sep s = true) (hs' : Q.sep s' = true)
    (ha : Q.plain a = true) {r : List α} :
    Q.nextArg (s :: (x ++ s' :: a :: t)) = some (x, r) ↔ Q.Word x ∧ r = s' :: a :: t := by
  rw [nextArg_sep hs]
  constructor
  · intro h
    have hcut := List.takeWhile_append_dropWhile (p := Q.sep) (l := x ++ s' :: a :: t)
    have hhead := List.head?_dropWhile_not Q.sep (x ++ s' :: a :: t)
    rw [nextArg] at h
    split at h
    · cases h
    · rename_i c cs hcs
      simp only [Option.some.injEq] at h
      obtain ⟨used, hused, hcons, hstop⟩ := exists_consumed (Q := Q) false 0 (c :: cs)
      rw [h] at hused hcons hstop
      rw [hcs] at hhead
      rw [hcs, hused, ← List.append_assoc] at hcut
      obtain ⟨hseps, rfl⟩ := hcons.used_eq hcut.symm (fun c hc => List.mem_takeWhile_imp hc) hstop ha
      rw [hseps, List.nil_append] at hcut
      -- a quote would be read off, and what was read is all there
      have hquote : Q.quote ∉ used := fun hq => by simpa using hcons.shorter hq
      refine ⟨⟨?_, fun d hd => ⟨hcons.outside rfl hquote d hd, ?_⟩⟩, List.append_cancel_left hcut⟩
      · rintro rfl
        obtain rfl : c :: cs = r := hused
        exact absurd (hstop c rfl) (by simpa using hhead)
      · rintro rfl
        exact hquote hd
  · rintro ⟨hx, rfl⟩
    exact nextArg_word hx hs' _

/-! ## Quoted arguments -/

/-- Inside quotes only an escape at the end is not read as it is. -/
theorem scan_quoted_iff {d t r : List α} {s : α} (hs : Q.sep s = true) (hd : Q.quote ∉ d) (k : ℕ) :
    Q.scan true k (d ++ Q.quote :: s :: t) = (List.replicate k Q.esc ++ d, r) ↔
      (List.replicate k Q.esc ++ d).getLast? ≠ some Q.esc ∧ r = s :: t := by
  induction d generalizing k with
  | nil =>
    cases k with
    | zero => simp [scan_quote, scan_sep hs, andThen, eq_comm]
    | succ k =>
      -- escapes up to the quote: they are halved or take it as it is
      have hlast : (List.replicate (k + 1) Q.esc ++ []).getLast? = some Q.esc := by
        rw [List.append_nil, List.replicate_succ', List.getLast?_concat]
      refine iff_of_false (fun h => ?_) fun h => h.1 hlast
      have harg := congrArg Prod.fst h
      rw [List.nil_append, List.append_nil, scan_quote] at harg
      split at harg
      · -- half of the escapes are left
        have hlen := congrArg List.length harg
        simp only [Bool.not_true, scan_sep hs, andThen_fst, List.length_append, List.length_replicate] at hlen
        omega
      -- the quote is in the argument instead
      · have hmem : Q.quote ∈ List.replicate (k + 1) Q.esc := by
          rw [← show _ = List.replicate (k + 1) Q.esc from harg]
          simp
        exact Q.quote_ne_esc (List.eq_of_mem_replicate hmem)
  | cons c d ih =>
    simp only [List.mem_cons, not_or] at hd
    rw [List.cons_append]
    by_cases hesc : c = Q.esc
    -- an escape joins those that are counted
    · have hmove : List.replicate k Q.esc ++ Q.esc :: d = List.replicate (k + 1) Q.esc ++ d := by
        rw [List.replicate_succ', List.append_assoc, List.singleton_append]
      rw [hesc, scan_esc, hmove]
      exact ih hd.2 (k + 1)
    · have hlast : (List.replicate k Q.esc ++ c :: d).getLast? = some Q.esc ↔ d.getLast? = some Q.esc := by
        cases h : d.getLast? with
        | none =>
          rw [List.getLast?_eq_none_iff.1 h, List.getLast?_concat]
          simp [hesc]
        | some e => simp [List.getLast?_append, List.getLast?_cons, h]
      rw [scan_char hesc (Ne.symm hd.1) (fun _ => rfl), Ne, hlast]
      have hih := ih hd.2 0
      rw [List.replicate_zero, List.nil_append] at hih
      rw [← Ne, ← hih, andThen]
      simp [Prod.ext_iff]

theorem nextArg_quoted_iff {d t r : List α} {s s' : α} (hs : Q.sep s = true) (hs' : Q.sep s' = true)
    (hd : Q.quote ∉ d) :
    Q.nextArg (s :: Q.quote :: (d ++ Q.quote :: s' :: t)) = some (d, r) ↔ d.getLast? ≠ some Q.esc ∧ r = s' :: t := by
  have hscan := scan_quoted_iff (t := t) (r := r) hs' hd 0
  rw [List.replicate_zero, List.nil_append] at hscan
  rw [nextArg_sep hs, nextArg_char Q.sep_quote, scan_quote, if_pos rfl, ← hscan, Option.some.injEq]
  rfl

end Quoting

end Lib
