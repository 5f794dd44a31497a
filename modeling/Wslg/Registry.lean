import Wslg.Sync
/-!
# Deleting an app

Apps are kept under group and id, but their links are named after the
description. Deleting one leaves the entries of the others alone; it leaves
their files alone exactly if it shares none of them.
-/

open Lib Lib.TraceM

namespace Wslg

open Client

variable {W F : Type}

def Machine.entry (m : Machine W) (key : WString) : Option fileEntry := m.this.m_spFileDB.bind (·.find key)

theorem Machine.entry_of_some {m : Machine W} {db : WSLDVCFileDB} (h : m.this.m_spFileDB = some db) : m.entry = db.find := by
  funext key
  rw [Machine.entry, h, Option.bind_some]

theorem Machine.entry_of_same {m m' : Machine W} (h : m'.this.m_spFileDB = m.this.m_spFileDB) : m'.entry = m.entry := by
  funext key
  rw [Machine.entry, Machine.entry, h]

/-- The paths recorded for an app: its link, and its icon file if it has one. -/
def fileEntry.recorded (e : fileEntry) : List WString := [e.m_linkFilePath, e.m_iconFilePath].filter (· ≠ [])

namespace FileSystem

variable {os : OS W} (fs : FileSystem os F)

/-- Deleting a file takes it away, and only it. -/
def DeletesExactly : Prop := ∀ path w, fs.files (os.DeleteFileW path w).2 = fs.files w \ {fs.fileOf path}

/-- The recorded files that were there are there. -/
def Kept (e : fileEntry) (w w' : W) : Prop :=
  ∀ path ∈ e.recorded, fs.fileOf path ∈ fs.files w → fs.fileOf path ∈ fs.files w'

/-- No recorded file that is there is also recorded for the other one. -/
def Apart (e other : fileEntry) (w : W) : Prop :=
  ∀ path ∈ e.recorded, fs.fileOf path ∈ fs.files w → ∀ q ∈ other.recorded, fs.fileOf q ≠ fs.fileOf path

theorem deleteRecorded_keeps (path : WString) (s : Sys W) {f : F} (h : f ∈ fs.files s.world)
    (hne : path ≠ [] → fs.fileOf path ≠ f) : f ∈ fs.files (deleteRecorded os path s).2.world := by
  unfold deleteRecorded
  split
  · exact fs.DeleteFileW path s.world ⟨h, fun hf => hne ‹_› hf.symm⟩
  · exact h

theorem deleteRecorded_takes (hdel : fs.DeletesExactly) (path : WString) (s : Sys W) {f : F}
    (h : f ∈ fs.files (deleteRecorded os path s).2.world) : f ∈ fs.files s.world ∧ (path ≠ [] → fs.fileOf path ≠ f) := by
  unfold deleteRecorded at h
  split at h
  · rw [show (_ : Sys W).world = (os.DeleteFileW path s.world).2 from rfl, hdel] at h
    exact ⟨h.1, fun _ hf => h.2 hf.symm⟩
  · rename_i hp
    exact ⟨h, fun h => (hp h).elim⟩

theorem mem_recorded {e : fileEntry} {q : WString} :
    q ∈ e.recorded ↔ (q = e.m_linkFilePath ∨ q = e.m_iconFilePath) ∧ q ≠ [] := by
  simp [fileEntry.recorded]

/-- Deleting an entry keeps the files of another one exactly if they are apart. -/
theorem deleteEntry_kept (key : WString) (e e' : fileEntry) (s : Sys W) :
    (fs.Apart e' e s.world → fs.Kept e' s.world (deleteEntry os key e s).2.world) ∧
    (fs.DeletesExactly → fs.Kept e' s.world (deleteEntry os key e s).2.world → fs.Apart e' e s.world) := by
  constructor
  · intro h path hpath hthere
    have hne : ∀ q, (q = e.m_linkFilePath ∨ q = e.m_iconFilePath) → q ≠ [] → fs.fileOf q ≠ fs.fileOf path :=
      fun q hq h0 => h path hpath hthere q (mem_recorded.2 ⟨hq, h0⟩)
    exact fs.deleteRecorded_keeps _ _ (fs.deleteRecorded_keeps _ _ hthere (hne _ (.inl rfl))) (hne _ (.inr rfl))
  · intro hdel h path hpath hthere q hq
    obtain ⟨hq, h0⟩ := mem_recorded.1 hq
    obtain ⟨hlink, hicon⟩ := fs.deleteRecorded_takes hdel _ _ (h path hpath hthere)
    obtain ⟨-, hlink⟩ := fs.deleteRecorded_takes hdel _ _ hlink
    rcases hq with rfl | rfl
    · exact hlink h0
    · exact hicon h0

end FileSystem

/-- What the DELETE that leads from `s` to `t` does to the other apps: their
entries stay, and their files stay exactly if they are apart from the deleted ones. -/
def LeavesOthers {os : OS W} (fs : FileSystem os F) (s t : Reading (Machine W)) : Prop :=
  ∃ p r e, readDelete s = .ok p r ∧ s.out.entry (keyOf p.appGroup p.appId) = some e ∧
    ∀ key e', key ≠ keyOf p.appGroup p.appId → s.out.entry key = some e' → t.out.entry key = some e' ∧
      (fs.Apart e' e s.out.sys.world → fs.Kept e' s.out.sys.world t.out.sys.world) ∧
      (fs.DeletesExactly → fs.Kept e' s.out.sys.world t.out.sys.world → fs.Apart e' e s.out.sys.world)

theorem delete_leaves_others {os : OS W} (fs : FileSystem os F) {s t : Reading (Machine W)}
    (h : OnDeleteAppList os s = .ok ⟨⟩ t) : LeavesOthers fs s t := by
  obtain ⟨p, r, hp, db, e, hdb, he, ht⟩ := (ends_OnDeleteAppList os s).ok h
  refine ⟨p, r, e, hp, by rwa [Machine.entry_of_some hdb], fun key e' hne he' => ⟨?_, ?_⟩⟩
  · rw [Machine.entry_of_some hdb] at he'
    rw [Machine.entry, ht]
    exact (KeyedSet.find_erase db _ key).trans ((if_neg hne).trans he')
  · rw [ht]
    exact fs.deleteEntry_kept _ _ _ _

theorem disk_deletesExactly : diskFileSystem.DeletesExactly := fun _ _ => Set.ext fun _ => Disk.mem_files_remove

/-- Two apps of one description. -/
def namesakes : Machine Disk :=
  runOn [] [capsMessage (L "U"), updateMessage 0 (L "a") (L "foo"), updateMessage 0 (L "b") (L "foo")]

theorem delete_leaves_others_on_disk : ∃ t,
    OnDeleteAppList diskOS ⟨(deleteMessage (L "a")).drop 8, 0, 8, namesakes⟩ = .ok ⟨⟩ t ∧
      LeavesOthers diskFileSystem ⟨(deleteMessage (L "a")).drop 8, 0, 8, namesakes⟩ t ∧
        diskFileSystem.DeletesExactly := by
  obtain ⟨_, t, h⟩ := succeeded_iff.1 (show succeeded
    (OnDeleteAppList diskOS ⟨(deleteMessage (L "a")).drop 8, 0, 8, namesakes⟩) = true by decide +kernel)
  exact ⟨t, h, delete_leaves_others diskFileSystem h, disk_deletesExactly⟩

/-- Deleting one of two apps with the same description takes the link of the other. -/
theorem delete_takes_link_of_namesake :
    let m := (OnDataReceived diskOS (deleteMessage (L "a")) namesakes).machine
    Reachable diskOS anyMessage namesakes ∧ deletedKeys m.sys.trace = [L "a"] ∧
      (∃ e, namesakes.entry (L "b") = some e ∧ m.entry (L "b") = some e ∧
        e.m_linkFilePath = L "C:\\S\\Programs\\U\\foo.lnk") ∧
      diskFileSystem.fileOf (L "C:\\S\\Programs\\U\\foo.lnk") ∈ diskFileSystem.files namesakes.sys.world ∧
      diskFileSystem.fileOf (L "C:\\S\\Programs\\U\\foo.lnk") ∉ diskFileSystem.files m.sys.world := by
  intro m
  have hbefore : namesakes.sys.world = [⟨L "C:\\S\\Programs\\U\\foo.lnk", []⟩] := by decide +kernel
  have hafter : m.sys.world = [] := by decide +kernel
  refine ⟨reachable_runOn _ _, by decide +kernel, ⟨⟨L "b", L "C:\\S\\Programs\\U\\foo.lnk", [], L "C:\\W\\wslg.exe",
    L "-d U --cd \"~\" -- x"⟩, by decide +kernel, by decide +kernel, rfl⟩, ?_, ?_⟩
  · rw [hbefore]
    exact ⟨_, List.mem_singleton_self _, rfl⟩
  · rw [hafter]
    simp [diskFileSystem, Disk.files]

end Wslg
