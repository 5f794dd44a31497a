import Wslg.Lib.Argv
import Wslg.Links
/-!
# The command line of a link

`exeArgs` is put together without escaping anything. The provider stands in it
as it is and the working directory in quotes, and the two handlers only look for
spaces and double quotes.
-/

open Lib

namespace Wslg

open Client WSLDVCCallback

variable {W : Type}

/-! ## How Windows reads it -/

/-- Arguments are separated by spaces and tabs. -/
def windowsArgs : Quoting WCHAR where
  sep c := c = 0x20 ∨ c = 0x09
  quote := 0x22
  esc := 0x5C
  sep_quote := by decide
  sep_esc := by decide
  quote_ne_esc := by decide

def workingDirOf (p : RDPAPPLIST_UPDATE_APPLIST_PDU) : WString :=
  if p.appWorkingDir.length ≠ 0 then p.appWorkingDir.str else L "~"

/-- `args` is read as the two options, each with one argument, and the command behind `--`. -/
def ReadAsIntended (provider : WString) (p : RDPAPPLIST_UPDATE_APPLIST_PDU) (args : WString) : Prop :=
  windowsArgs.takeArgs 5 args = some ([L "-d", provider, L "--cd", workingDirOf p, L "--"], L " " ++ p.appExecPath.str)

instance (provider : WString) (p : RDPAPPLIST_UPDATE_APPLIST_PDU) (args : WString) :
    Decidable (ReadAsIntended provider p args) := inferInstanceAs (Decidable (_ = _))

theorem quote_not_mem_workingDirOf {p : RDPAPPLIST_UPDATE_APPLIST_PDU} (h : fieldsOk p = true) :
    windowsArgs.quote ∉ workingDirOf p := by
  simp only [fieldsOk, Bool.and_eq_true, Bool.not_eq_true'] at h
  have hdir : ¬ L "\"" <:+: p.appWorkingDir.str := by simpa [wcsstr] using h.2
  unfold workingDirOf
  split
  · intro hmem
    exact hdir ((List.singleton_infix_iff _ _).2 hmem)
  · decide

/-- What stands between the fields are words and separators. -/
theorem exeArgsOf_eq (provider : WString) (p : RDPAPPLIST_UPDATE_APPLIST_PDU) :
    exeArgsOf provider p = L "-d" ++ 0x20 :: (provider ++ 0x20 :: 0x2D :: (L "-cd" ++ 0x20 :: 0x22 ::
      (workingDirOf p ++ 0x22 :: 0x20 :: (L "--" ++ 0x20 :: p.appExecPath.str)))) := by
  have h₁ : L "-d " = L "-d" ++ [0x20] := by decide
  have h₂ : L " --cd \"" = 0x20 :: 0x2D :: (L "-cd" ++ [0x20, 0x22]) := by decide
  have h₃ : L "\" -- " = 0x22 :: 0x20 :: (L "--" ++ [0x20]) := by decide
  rw [exeArgsOf, h₁, h₂, h₃, ← workingDirOf]
  simp only [List.append_assoc, List.cons_append, List.nil_append]

/-- The provider must be a word, and the working directory must not escape the quote behind it. -/
theorem readAsIntended_iff {p : RDPAPPLIST_UPDATE_APPLIST_PDU} (h : fieldsOk p = true) (provider : WString) :
    ReadAsIntended provider p (exeArgsOf provider p) ↔
      windowsArgs.Word provider ∧ (workingDirOf p).getLast? ≠ some windowsArgs.esc := by
  have hspace : windowsArgs.sep 0x20 = true := by decide
  have hcd : ∀ t : WString, windowsArgs.nextArg (0x20 :: 0x2D :: (L "-cd" ++ 0x20 :: t)) = some (L "--cd", 0x20 :: t) := by
    intro t
    rw [Quoting.nextArg_sep hspace]
    exact Quoting.nextArg_word (x := L "--cd") (by decide) hspace t
  have hend : ∀ t : WString, windowsArgs.nextArg (0x20 :: (L "--" ++ 0x20 :: t)) = some (L "--", 0x20 :: t) := by
    intro t
    rw [Quoting.nextArg_sep hspace]
    exact Quoting.nextArg_word (by decide) hspace t
  have hdir : ∀ t r : WString, windowsArgs.nextArg (0x20 :: 0x22 :: (workingDirOf p ++ 0x22 :: 0x20 :: t)) =
      some (workingDirOf p, r) ↔ (workingDirOf p).getLast? ≠ some windowsArgs.esc ∧ r = 0x20 :: t :=
    fun t r => Quoting.nextArg_quoted_iff hspace hspace (quote_not_mem_workingDirOf h)
  rw [ReadAsIntended, exeArgsOf_eq, Quoting.takeArgs_next (Quoting.nextArg_word (by decide) hspace _),
    Quoting.takeArgs_iff fun _ => Quoting.nextArg_eq_iff hspace hspace (by decide), Quoting.takeArgs_next (hcd _),
    Quoting.takeArgs_iff (hdir _), Quoting.takeArgs_next (hend _)]
  exact and_congr_right fun _ => and_iff_left rfl

/-! ## The link of an update -/

/-- The link that an accepted update writes has the intended command line exactly if the
provider is a word and the working directory does not end in a backslash. -/
theorem link_reads_as_intended_iff {os : OS W} {s t : Reading (Machine W)} (h : OnUpdateAppList os s = .ok ⟨⟩ t) :
    ∃ p link, Accepted os s t p link ∧ (ReadAsIntended s.out.this.m_appProvider.str p link.args ↔
      windowsArgs.Word s.out.this.m_appProvider.str ∧ (workingDirOf p).getLast? ≠ some windowsArgs.esc) := by
  obtain ⟨p, link, ha⟩ := accepted_update h
  refine ⟨p, link, ha, ?_⟩
  rw [ha.args]
  exact readAsIntended_iff ha.fields _

/-! ### On the disk -/

/-- An update of the app `a` with the command `x`, behind its header. -/
def updateInDir (dir : WString) : Reading (Machine Disk) :=
  .between [] (le32 (RDPAPPLIST_FIELD_ID ||| RDPAPPLIST_FIELD_EXECPATH ||| RDPAPPLIST_FIELD_WORKINGDIR |||
    RDPAPPLIST_FIELD_DESC) ++ strBytes (utf16 (L "a")) ++ strBytes (utf16 (L "x")) ++ strBytes (utf16 dir) ++
      strBytes (utf16 (L "foo"))) channelOfU

theorem link_reads_as_intended_on_disk : ∃ t, OnUpdateAppList diskOS (updateInDir (L "/a")) = .ok ⟨⟩ t ∧
    ∃ p link, Accepted diskOS (updateInDir (L "/a")) t p link ∧
      (ReadAsIntended (updateInDir (L "/a")).out.this.m_appProvider.str p link.args ↔
        windowsArgs.Word (updateInDir (L "/a")).out.this.m_appProvider.str ∧
          (workingDirOf p).getLast? ≠ some windowsArgs.esc) := by
  have hok : succeeded (OnUpdateAppList diskOS (updateInDir (L "/a"))) = true := by decide +kernel
  obtain ⟨⟨⟩, t, ht⟩ := succeeded_iff.1 hok
  exact ⟨t, ht, link_reads_as_intended_iff ht⟩

/-- The working directory and the command line of the update at `s`. -/
def readFields (s : Reading (Machine Disk)) : WString × WString :=
  match ReadUpdateMessage diskOS s with
  | .ok (p, _) _ => (workingDirOf p, exeArgsOf s.out.this.m_appProvider.str p)
  | .error _ _ => ([], [])

/-- The backslash at its end makes the working directory take in the rest of the line. -/
theorem backslash_escapes_the_quote : Reachable diskOS anyMessage (updateInDir (L "/a\\")).out ∧
    (updateInDir (L "/a\\")).out.this.m_handShakeComplated = true ∧
    ∃ t, OnUpdateAppList diskOS (updateInDir (L "/a\\")) = .ok ⟨⟩ t ∧
      ∃ p link, Accepted diskOS (updateInDir (L "/a\\")) t p link ∧ workingDirOf p = L "/a\\" ∧
        windowsArgs.takeArgs 4 link.args = some ([L "-d", L "U", L "--cd", L "/a\" -- x"], []) ∧
        ¬ ReadAsIntended (updateInDir (L "/a\\")).out.this.m_appProvider.str p link.args := by
  have hok : succeeded (OnUpdateAppList diskOS (updateInDir (L "/a\\"))) = true := by decide +kernel
  obtain ⟨⟨⟩, t, ht⟩ := succeeded_iff.1 hok
  obtain ⟨p, link, ha⟩ := accepted_update ht
  obtain ⟨icon, u, hread⟩ := ha.read
  have hfields : readFields (updateInDir (L "/a\\")) = (L "/a\\", L "-d U --cd \"/a\\\" -- x") := by decide +kernel
  rw [readFields, hread] at hfields
  have hdir : workingDirOf p = L "/a\\" := congrArg Prod.fst hfields
  have hargs : link.args = L "-d U --cd \"/a\\\" -- x" := ha.args.trans (congrArg Prod.snd hfields)
  refine ⟨reachable_channelOfU, by decide +kernel, t, ht, p, link, ha, hdir, ?_, ?_⟩
  · rw [hargs]
    decide
  · rw [ha.args, readAsIntended_iff ha.fields, hdir]
    intro hword
    exact hword.2 (by decide)

end Wslg
