import Wslg.Sync
/-!
# Reported apps and the clean-up

The clean-up spares paths, not files. A reported app is still on disk after it
if no recorded path names its file in another spelling, and no other app that
shares the file is deleted meanwhile.
-/

open Lib

namespace Wslg

variable {W F : Type}

/-- `path` is a file that was written for the app. -/
def AppUpdate.Wrote (u : AppUpdate) (path : WString) : Prop :=
  (u.hasLink ∧ path = u.linkPath) ∨ (u.hasIcon ∧ path = u.iconPath)

namespace FileSystem

variable {os : OS W} (fs : FileSystem os F)

/-- What must not happen to the file of a reported app: the scan recorded it
under a spelling that is not reported, or another app takes it along when it is
deleted. -/
structure SpelledAlike (scan mid since : List Event) (u : AppUpdate) (path : WString) : Prop where
  recorded : ∀ q, Recorded scan q → fs.fileOf q = fs.fileOf path → Spared mid q
  deleted : ∀ key link icon, .deleted key link icon ∈ since → key ≠ u.key →
    ∀ q, q = link ∨ q = icon → q ≠ [] → fs.fileOf q ≠ fs.fileOf path

/-- The apps reported in the session that has just been cleaned up, and not deleted since, are on disk. -/
def ReportedSurvive (m : Machine W) : Prop :=
  ∀ pre block, m.sys.trace = pre ++ .OnSyncEnd true :: (block ++ [.syncClosed []]) → (∀ e ∈ block, CleanUpEvent e) →
    ∃ before path scan mid, pre = before ++ .OnSyncStart path :: (scan ++ mid) ∧ (∀ e ∈ scan, ScanEvent path e) ∧
      (∀ e ∈ mid, ¬ SessionEvent e) ∧
      ∀ a u since, mid = a ++ .updated u :: since → has u.flags RDPAPPLIST_HINT_SYNC →
        (∀ link icon, .deleted u.key link icon ∉ since) →
        ∀ file, u.Wrote file → fs.SpelledAlike scan mid since u file → fs.fileOf file ∈ fs.files m.sys.world

theorem mem_after_creation {u : AppUpdate} {files : List Event} (h : Ledger.Creation u files) (there : Set F)
    {path : WString} (hp : u.Wrote path) : fs.fileOf path ∈ fs.after there files := by
  cases h with
  | link hl hi =>
    rcases hp with ⟨hk, rfl⟩ | ⟨hi', -⟩
    · simp [after, afterEvent, hk, hl]
    -- no icon file was made
    · rw [hi] at hi'
      cases hi'
  | icon hl =>
    rcases hp with ⟨hk, rfl⟩ | ⟨hi, rfl⟩
    · simp [after, afterEvent, hk, hl]
    · cases hk : u.hasLink <;> simp [after, afterEvent, hi]

end FileSystem

theorem cleanup_ends {block block' after : List Event} (hblock : ∀ e ∈ block, CleanUpEvent e)
    (h : block ++ [.syncClosed []] = block' ++ .syncClosed [] :: after) : block = block' := by
  rcases List.append_eq_append_iff.1 h with ⟨w, rfl, hw⟩ | ⟨w, rfl, hw⟩
  · cases w with
    | nil => simp
    | cons e w => simp at hw
  · cases w with
    | nil => simp
    | cons e w =>
      obtain ⟨rfl, -⟩ := List.cons.inj hw
      exact (hblock (.syncClosed []) (by simp)).elim

/-- In every run the reported apps survive the clean-up, unless a file goes by two spellings. -/
theorem reported_apps_survive {os : OS W} (fs : FileSystem os F) {m : Machine W} (h : Reachable os anyMessage m) :
    fs.ReportedSurvive m := by
  intro pre block ht hblock
  obtain ⟨files, path, scan, mid, block', after, hopen, hpost, hclean⟩ :=
    h.steps.sessions.ends pre _ _ ht true rfl
  obtain rfl := cleanup_ends hblock hpost
  obtain ⟨before, rfl⟩ := hopen.split
  refine ⟨before, path, scan, mid, rfl, hopen.scanned, hopen.quiet, ?_⟩
  rintro a u since rfl - hkept file hwrote halike
  obtain ⟨w, hw⟩ := fs.after_reachable h
  refine hw ?_
  -- the file is there when the app is taken over
  obtain ⟨x, created, hx, hcreated⟩ := h.steps.written (before ++ .OnSyncStart path :: (scan ++ a)) _
    (since ++ .OnSyncEnd true :: (block ++ [.syncClosed []])) (by simpa [Machine.ledger] using ht) u rfl
  have hsplit : m.sys.trace =
      x ++ created ++ (.updated u :: since ++ .OnSyncEnd true :: (block ++ [.syncClosed []])) := by
    rw [← hx, ht]
    simp
  rw [hsplit, fs.after_append, fs.after_append (fs.files w) x]
  refine fs.mem_after (fs.mem_after_creation hcreated _ hwrote) fun q ok hq hfile => ?_
  -- and whatever is deleted later is another file
  rcases List.mem_append.1 hq with hq | hq
  -- deleted with an app in the session
  · obtain ⟨b₁, b₂, hb⟩ := List.append_of_mem ((List.mem_cons.1 hq).resolve_left (by simp))
    obtain ⟨key, link, icon, hmem, hne, hor⟩ := hopen.deletes (a ++ .updated u :: b₁) _ b₂ (by simp [hb]) q ok rfl
    have hmem' : Event.deleted key link icon ∈ since := by simp [hb, hmem]
    by_cases hkey : key = u.key
    · exact hkept link icon (hkey ▸ hmem')
    · exact halike.deleted key link icon hmem' hkey q hor hne hfile
  · simp only [List.mem_cons, reduceCtorEq, List.mem_append, List.not_mem_nil, or_false, false_or] at hq
    -- deleted by the clean-up, which leaves out what was spared
    have hdel := (hclean.deleted q).1 (List.mem_filterMap.2 ⟨_, hq, rfl⟩)
    obtain ⟨hrec, hspared⟩ := (hopen.left q).1 hdel.2
    exact hspared (halike.recorded q hrec hfile)

/-- Two apps are reported where the scan found one of them, spelled alike, and an old one. -/
theorem reported_apps_survive_on_disk :
    let m := runOn [⟨L "C:\\S\\Programs\\U\\foo.lnk", []⟩, ⟨L "C:\\S\\Programs\\U\\old.lnk", []⟩]
      [capsMessage (L "U"), wholeSession]
    diskFileSystem.ReportedSurvive m ∧ (updatesIn m.sys.trace).map (·.linkPath) = [L "C:\\S\\Programs\\U\\foo.lnk"] ∧
      m.sys.trace.getLast? = some (.syncClosed []) ∧ m.sys.world = [⟨L "C:\\S\\Programs\\U\\foo.lnk", []⟩] :=
  ⟨reported_apps_survive diskFileSystem (reachable_runOn _ _), by decide +kernel⟩

def oldSpelling : Disk := [⟨L "C:\\S\\Programs\\U\\Foo.lnk", []⟩]

/-- The menu has the app as `Foo.lnk`, the server reports it as `foo`: its link is deleted. -/
theorem reported_app_deleted :
    let m := runOn oldSpelling [capsMessage (L "U"), wholeSession]
    Reachable diskOS anyMessage m ∧ m.sys.trace.getLast? = some (.syncClosed []) ∧ deletedKeys m.sys.trace = [] ∧
      ∃ u, updatesIn m.sys.trace = [u] ∧ has u.flags RDPAPPLIST_HINT_SYNC ∧ u.hasLink = true ∧
        u.linkPath = L "C:\\S\\Programs\\U\\foo.lnk" ∧
        diskFileSystem.fileOf u.linkPath ∉ diskFileSystem.files m.sys.world := by
  intro m
  have hworld : m.sys.world = [] := by decide +kernel
  refine ⟨reachable_runOn _ _, by decide +kernel, by decide +kernel, ⟨0x70000D, L "a",
    L "C:\\S\\Programs\\U\\foo.lnk", [], true, false, L "C:\\S\\Programs\\U", L "C:\\T\\WSLDVCPlugin\\U"⟩,
    by decide +kernel, by decide, rfl, rfl, ?_⟩
  rw [hworld]
  simp [diskFileSystem, Disk.files]

end Wslg
