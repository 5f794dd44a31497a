import Mathlib.Data.List.DropRight
import Wslg.Lib.Shell
import Wslg.ProcessMonitor
/-!
# Translating a path

`TranslateWindowsPath` of WSLGd puts a path in double quotes, runs `wslpath` in a
shell and trims its output. The path is not escaped, and the trimming loop does
not ask whether anything is left.
-/

open Lib

namespace Wslg.Wslgd

/-! ## The function -/

def c_newline : BYTE := 0x0A

def c_wslpath : CharString := "/usr/bin/wslpath".toUTF8.toList

def c_option : CharString := "-a".toUTF8.toList

def commandLine (Path : CharString) : CharString := "/usr/bin/wslpath -a \"".toUTF8.toList ++ Path ++ "\"".toUTF8.toList

/-- `fgets` into `n + 1` characters: what is stored and what is left. -/
def fgets : ℕ → CharString → CharString × CharString
  | 0, out => ([], out)
  | _, [] => ([], [])
  | n + 1, c :: cs => if c = c_newline then ([c], cs) else (c :: (fgets n cs).1, (fgets n cs).2)

/-- The loop over `fgets`, for so many turns: what is appended ends at the first null. -/
def readOutput : ℕ → CharString → CharString
  | _, [] => []
  | 0, _ => []
  | fuel + 1, c :: cs => c_str (fgets 127 (c :: cs)).1 ++ readOutput fuel (fgets 127 (c :: cs)).2

/-- `while (result.back() == '\n') result.pop_back()` on the reversed string; `none`
if `back()` is called on an empty one. -/
def popNewlines : CharString → Option CharString
  | [] => none
  | c :: cs => if c = c_newline then popNewlines cs else some (c :: cs)

def trim (result : CharString) : Option CharString := (popNewlines result.reverse).map List.reverse

/-- What a command prints, `none` if there is no pipe, and the status of `pclose`. -/
structure Pipes where
  popen : CharString → Option CharString
  pclose : CharString → Int

inductive Translation where
  | path (result : CharString)
  | exception
  /-- `back()` of an empty string. -/
  | undefined
  deriving DecidableEq

def TranslateWindowsPath (os : Pipes) (Path : CharString) : Translation :=
  let command := c_str (commandLine Path)
  match os.popen command with
  | none => .exception
  | some out =>
    match trim (readOutput out.length out) with
    | none => .undefined
    | some result => if os.pclose command ≠ 0 then .exception else .path result

/-! ## What it should do -/

/-- The shell runs `wslpath` with the option and the path as it is, and nothing else. -/
def PassedUnchanged (Path : CharString) : Prop :=
  Shell.words (c_str (commandLine Path)) = some [c_wslpath, c_option, Path]

/-- The output without its trailing newlines, unless the command failed. -/
def trimmed (os : Pipes) (Path out : CharString) : Translation :=
  if os.pclose (c_str (commandLine Path)) ≠ 0 then .exception else .path (out.rdropWhile (· = c_newline))

/-! ## Passing the path -/

theorem c_str_eq {s : CharString} (h : 0 ∉ s) : c_str s = s := by
  unfold c_str
  rw [List.takeWhile_eq_self_iff]
  intro c hc
  simp only [ne_eq, decide_not, Bool.not_eq_eq_eq_not, Bool.not_true, decide_eq_false_iff_not]
  rintro rfl
  exact h hc

/-- Two plain words and the path in quotes. -/
theorem commandLine_eq (Path : CharString) : commandLine Path =
    c_wslpath ++ 0x20 :: (c_option ++ 0x20 :: (Shell.dquote :: (Path ++ [Shell.dquote]))) := by
  have hstart : "/usr/bin/wslpath -a \"".toUTF8.toList = c_wslpath ++ 0x20 :: (c_option ++ 0x20 :: [Shell.dquote]) := by
    decide +kernel
  have hend : "\"".toUTF8.toList = [Shell.dquote] := by decide +kernel
  rw [commandLine, hstart, hend]
  simp

theorem wordsUpTo_wslpath (n : ℕ) (line : CharString) (ws : List CharString) :
    Shell.wordsUpTo (n + 1) (c_wslpath ++ 0x20 :: line) = some (c_wslpath :: ws) ↔ Shell.wordsUpTo n line = some ws := by
  have hcons : c_wslpath = 0x2F :: c_wslpath.tail := by decide +kernel
  have hplain : (0x2F :: c_wslpath.tail).all Shell.plain := by decide +kernel
  rw [hcons, Shell.wordsUpTo_plain hplain (by decide), and_iff_right rfl]

theorem wordsUpTo_option (n : ℕ) (line : CharString) (ws : List CharString) :
    Shell.wordsUpTo (n + 1) (c_option ++ 0x20 :: line) = some (c_option :: ws) ↔ Shell.wordsUpTo n line = some ws := by
  have hcons : c_option = [0x2D, 0x61] := by decide +kernel
  rw [hcons, Shell.wordsUpTo_plain (by decide) (by decide), and_iff_right rfl]

theorem passedUnchanged_iff {Path : CharString} (h : 0 ∉ Path) : PassedUnchanged Path ↔ Shell.inert Path := by
  have hwslpath : (0 : BYTE) ∉ c_wslpath := by decide +kernel
  have hoption : (0 : BYTE) ∉ c_option := by decide +kernel
  have hline : 0 ∉ commandLine Path := by
    rw [commandLine_eq]
    simp [hwslpath, hoption, h, Shell.dquote]
  obtain ⟨n, hn⟩ : ∃ n, (commandLine Path).length = n + 1 + 1 + 1 := by
    refine ⟨(commandLine Path).length - 3, ?_⟩
    have hlen : 3 ≤ (commandLine Path).length := by
      rw [commandLine_eq]
      simp only [List.length_append, List.length_cons, List.length_nil]
      omega
    omega
  rw [PassedUnchanged, c_str_eq hline, Shell.words, hn, commandLine_eq, wordsUpTo_wslpath, wordsUpTo_option,
    Shell.wordsUpTo_double]

/-! ## Returning the output -/

theorem fgets_append (n : ℕ) (out : CharString) : (fgets n out).1 ++ (fgets n out).2 = out := by
  fun_induction fgets n out with
  | case1 => rfl
  | case2 => rfl
  | case3 => rfl
  | case4 n c cs _ ih => simp [ih]

/-- Every turn reads something. -/
theorem fgets_length (n : ℕ) (c : BYTE) (cs : CharString) : (fgets (n + 1) (c :: cs)).2.length ≤ cs.length := by
  have hsplit := congrArg List.length (fgets_append (n + 1) (c :: cs))
  have hfirst : 1 ≤ (fgets (n + 1) (c :: cs)).1.length := by
    rw [fgets]
    split <;> simp
  rw [List.length_append, List.length_cons] at hsplit
  omega

/-- All of an output without nulls is read. -/
theorem readOutput_eq {fuel : ℕ} {out : CharString} (hf : out.length ≤ fuel) (h : 0 ∉ out) : readOutput fuel out = out := by
  fun_induction readOutput fuel out with
  | case1 => rfl
  | case2 out hne => exact (List.length_eq_zero_iff.1 (Nat.le_zero.1 hf)).symm
  | case3 fuel c cs ih =>
    have hsplit := fgets_append 127 (c :: cs)
    have hlen : (fgets 127 (c :: cs)).2.length ≤ cs.length := fgets_length 126 c cs
    rw [← hsplit, List.mem_append, not_or] at h
    rw [List.length_cons] at hf
    rw [c_str_eq h.1, ih (by omega) h.2, hsplit]

/-- The loop ends with a character, or with an empty string. -/
theorem popNewlines_eq (s : CharString) : popNewlines s =
    if s.all (· = c_newline) then none else some (s.dropWhile (· = c_newline)) := by
  fun_induction popNewlines s with
  | case1 => rfl
  | case2 cs ih => simp [ih]
  | case3 c cs hc => simp [hc]

theorem trim_eq (s : CharString) : trim s =
    if s.all (· = c_newline) then none else some (s.rdropWhile (· = c_newline)) := by
  rw [trim, popNewlines_eq, List.all_reverse, List.rdropWhile]
  split <;> rfl

theorem translate_output {os : Pipes} {Path out : CharString} (hout : os.popen (c_str (commandLine Path)) = some out)
    (h : 0 ∉ out) : TranslateWindowsPath os Path =
      if out.all (· = c_newline) then .undefined else trimmed os Path out := by
  unfold TranslateWindowsPath trimmed
  simp only [hout, readOutput_eq (Nat.le_refl _) h, trim_eq]
  by_cases hall : out.all (· = c_newline) = true
  · simp only [if_pos hall]
  · simp only [if_neg hall]

/-- The path reaches the command as it is exactly if it is inert between double quotes,
and what the command prints comes back trimmed exactly if it is not all newlines. -/
theorem translate_unchanged_iff {os : Pipes} {Path out : CharString} (hpath : 0 ∉ Path)
    (hout : os.popen (c_str (commandLine Path)) = some out) (h : 0 ∉ out) :
    (PassedUnchanged Path ↔ Shell.inert Path) ∧
      (TranslateWindowsPath os Path = trimmed os Path out ↔ ∃ c ∈ out, c ≠ c_newline) := by
  refine ⟨passedUnchanged_iff hpath, ?_⟩
  rw [translate_output hout h]
  have hiff : (∃ c ∈ out, c ≠ c_newline) ↔ ¬ out.all (· = c_newline) := by simp
  rw [hiff]
  split
  · rename_i hall
    refine iff_of_false (fun he => ?_) (not_not.2 hall)
    unfold trimmed at he
    split at he <;> cases he
  · rename_i hall
    exact iff_of_true rfl hall

/-! ### Paths -/

/-- A command that prints the same whatever it is given. -/
def printing (out : CharString) : Pipes := ⟨fun _ => some out, fun _ => 0⟩

theorem translate_unchanged_iff_of_drive :
    let Path : CharString := "C:\\ProgramData".toUTF8.toList
    let out : CharString := "/mnt/c/ProgramData\n".toUTF8.toList
    PassedUnchanged Path ∧ TranslateWindowsPath (printing out) Path = .path "/mnt/c/ProgramData".toUTF8.toList := by
  intro Path out
  have h : (PassedUnchanged Path ↔ Shell.inert Path) ∧
      (TranslateWindowsPath (printing out) Path = trimmed (printing out) Path out ↔ ∃ c ∈ out, c ≠ c_newline) :=
    translate_unchanged_iff (by decide +kernel) rfl (by decide +kernel)
  have htrimmed : trimmed (printing out) Path out = .path "/mnt/c/ProgramData".toUTF8.toList := by decide +kernel
  exact ⟨h.1.2 (by decide +kernel), (h.2.2 ⟨47, by decide +kernel, by decide⟩).trans htrimmed⟩

/-- Of a share one backslash is lost, and a command that prints nothing leaves nothing to look at. -/
theorem share_changed :
    ¬ PassedUnchanged "\\\\server\\share".toUTF8.toList ∧
      Shell.words (c_str (commandLine "\\\\server\\share".toUTF8.toList)) =
        some [c_wslpath, c_option, "\\server\\share".toUTF8.toList] ∧
      TranslateWindowsPath (printing []) "\\\\server\\share".toUTF8.toList = .undefined := by
  have hwords : Shell.words (c_str (commandLine "\\\\server\\share".toUTF8.toList)) =
      some [c_wslpath, c_option, "\\server\\share".toUTF8.toList] := by decide +kernel
  refine ⟨fun h => ?_, hwords, rfl⟩
  rw [PassedUnchanged, hwords] at h
  revert h
  decide +kernel

end Wslg.Wslgd
