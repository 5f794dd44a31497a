import Wslg.Ledger
import Wslg.Frame
/-!
# Scanning and cleaning up

The two passes of the sync database over the disk: the scan records the links
below a folder and the icon files they name, the clean-up deletes every
recorded path once.
-/

open Lib Lib.TraceM

namespace Wslg

variable {W : Type}

/-! ## Scanning -/

/-- `path` is `root` or lies below it without climbing. -/
def Within (root path : WString) : Prop := path = root ∨ ∃ q, path = root ++ 92 :: q ∧ L ".." ∉ pathComponents q

theorem pathComponents_name {name : WString} (h : ∀ c ∈ name, isSep c = false) : pathComponents name = [name] := by
  induction name with
  | nil => rfl
  | cons c cs ih =>
    rw [List.forall_mem_cons] at h
    simp [List.splitOnP_cons_eq_if_modifyHead, h.1, show List.splitOnP isSep cs = [cs] from ih h.2]

/-- One entry further down. -/
theorem Within.entry {root path name : WString} (h : Within root path) (hsep : ∀ c ∈ name, isSep c = false)
    (hdots : name ≠ L "..") : ∃ q, path ++ L "\\" ++ name = root ++ 92 :: q ∧ L ".." ∉ pathComponents q ∧
      name ∈ pathComponents q := by
  have hname : L ".." ∉ pathComponents name := by simpa [pathComponents_name hsep] using hdots.symm
  rcases h with rfl | ⟨q, rfl, hq⟩
  · exact ⟨name, by simp [L], hname, by simp [pathComponents_name hsep]⟩
  · have e : pathComponents (q ++ 92 :: name) = pathComponents q ++ pathComponents name := components_append rfl
    refine ⟨q ++ 92 :: name, by simp [L], ?_, ?_⟩ <;> rw [e, List.mem_append]
    · exact not_or.2 ⟨hq, hname⟩
    · exact .inr (by simp [pathComponents_name hsep])

/-- A file with an extension has a name. -/
theorem named_of_extension {name : WString} (h : WSLDVCFileDB.PathFindExtensionW name = L ".lnk") : Named dot name := by
  constructor <;> rintro rfl <;> exact absurd h (by decide)

/-- What a scan of some part of `root` does: it adds what it comes across. -/
def Scans (root : WString) (x : WSLDVCFileDB → SysM W WSLDVCFileDB) : Prop :=
  ∀ db s, ∃ ext, (x db s).2.trace = s.trace ++ ext ∧ (∀ e ∈ ext, ScanEvent root e) ∧
    ∀ p, p ∈ (x db s).1.keys ↔ p ∈ db.keys ∨ Recorded ext p

section Scans

variable {root : WString} {os : OS W}

theorem recorded_append {a b : List Event} {p : WString} : Recorded (a ++ b) p ↔ Recorded a p ∨ Recorded b p := by
  constructor
  · rintro ⟨l, i, h, hp⟩
    exact (List.mem_append.1 h).imp (fun h => ⟨l, i, h, hp⟩) fun h => ⟨l, i, h, hp⟩
  · rintro (⟨l, i, h, hp⟩ | ⟨l, i, h, hp⟩)
    · exact ⟨l, i, List.mem_append_left _ h, hp⟩
    · exact ⟨l, i, List.mem_append_right _ h, hp⟩

theorem not_recorded_nil (p : WString) : ¬ Recorded [] p := fun ⟨_, _, h, _⟩ => by simp at h

theorem scans_pure : Scans root (fun db => (pure db : SysM W WSLDVCFileDB)) :=
  fun _ s => ⟨[], by simp, by simp, fun _ => by simp [not_recorded_nil]⟩

theorem Scans.seq {x y : WSLDVCFileDB → SysM W WSLDVCFileDB} (hx : Scans root x) (hy : Scans root y) :
    Scans root (fun db => x db >>= y) := by
  intro db s
  obtain ⟨ext, ht, hext, hk⟩ := hx db s
  obtain ⟨ext', ht', hext', hk'⟩ := hy (x db s).1 (x db s).2
  refine ⟨ext ++ ext', by simp [ht', ht], fun e he => (List.mem_append.1 he).elim (hext e) (hext' e), fun p => ?_⟩
  simp only [bind_run, hk', hk, recorded_append, or_assoc]

/-- A call that leaves no event, and a scan that may depend on the answer. -/
theorem Scans.call {α : Type} {f : W → α × W} {x : α → WSLDVCFileDB → SysM W WSLDVCFileDB}
    (h : ∀ a, Scans root (x a)) : Scans root (fun db => TraceM.call f >>= fun a => x a db) :=
  fun db _ => h _ db _

theorem scans_RemoveDirectory (path : WString) :
    Scans root (fun db => RemoveDirectory os path >>= fun _ => (pure db : SysM W WSLDVCFileDB)) := fun db s => by
  refine ⟨[.RemoveDirectory path], rfl, by simp [ScanEvent], fun p => ?_⟩
  have : ¬ Recorded [.RemoveDirectory path] p := by
    rintro ⟨_, _, h, _⟩
    simp at h
  simp [this]

namespace WSLDVCFileDB

/-- One link, with the icon file it names. -/
theorem scans_lnkFile {lnkFile : WString} (iconFile : Option WString) (h : StrictlyBelow isSep dot root lnkFile) :
    Scans root (fun db => emit (.OnLnkFileAdded lnkFile iconFile) >>= fun _ =>
      (match iconFile with
      | some iconFile => pure ((db.insert { m_fileId := lnkFile }).insert { m_fileId := iconFile })
      | none => pure (db.insert { m_fileId := lnkFile }) : SysM W WSLDVCFileDB)) := by
  refine fun db s => ⟨[.OnLnkFileAdded lnkFile iconFile], by cases iconFile <;> rfl, by simpa [ScanEvent] using h,
    fun p => ?_⟩
  simp only [Recorded, List.mem_singleton, Event.OnLnkFileAdded.injEq, and_assoc]
  cases iconFile with
  | none => simp [KeyedSet.mem_keys_insert]
  | some icon => simp [KeyedSet.mem_keys_insert, or_assoc, eq_comm]

theorem scans_OnLnkFileAdded {lnkFile : WString} (h : StrictlyBelow isSep dot root lnkFile) :
    Scans root (fun db => OnLnkFileAdded os db lnkFile) := Scans.call fun iconFile => scans_lnkFile iconFile h

theorem scans_addEntry {scan : WString → WSLDVCFileDB → SysM W WSLDVCFileDB}
    (hscan : ∀ path, Within root path → Scans root (scan path)) {path : WString} (hp : Within root path)
    (data : FindData) : Scans root (addEntry os scan path data) := by
  unfold addEntry
  simp only
  split
  · split
    · exact scans_pure
    · rename_i hdots
      -- a folder: scanned, or removed if it is empty
      obtain ⟨q, hq, hc, -⟩ := hp.entry data.noSep fun h => hdots (.inr h)
      refine Scans.call fun b => ?_
      cases b
      · exact hscan _ (.inr ⟨q, hq, hc⟩)
      · exact scans_RemoveDirectory _
  · rename_i hd
    split
    · rename_i hext
      -- a link: its name is more than the extension
      obtain ⟨q, hq, hc, hn⟩ := hp.entry data.noSep (data.notDots (by simpa using hd)).2
      refine scans_OnLnkFileAdded ?_
      rw [hq]
      exact (strictlyBelow_append rfl hc).2 ⟨_, hn, named_of_extension hext⟩
    · exact scans_pure

theorem scans_addEntries {scan : WString → WSLDVCFileDB → SysM W WSLDVCFileDB}
    (hscan : ∀ path, Within root path → Scans root (scan path)) {path : WString} (hp : Within root path)
    (entries : List FindData) : Scans root (addEntries os scan path entries) := by
  induction entries with
  | nil => exact scans_pure
  | cons d ds ih => exact (scans_addEntry hscan hp d).seq ih

theorem scans_addAllSubFolderFiles (depth : Nat) {path : WString} (hp : Within root path) :
    Scans root (addAllSubFolderFiles os depth path) := by
  induction depth generalizing path with
  | zero => exact scans_pure
  | succ depth ih =>
    refine Scans.call fun entries => ?_
    cases entries
    · exact scans_addEntries (fun _ => ih) hp _
    · exact scans_addEntries (fun _ => ih) hp _

/-- The scan records the links below the folder and the icon files they name. -/
theorem addAllFilesAsFileIdAt_spec (os : OS W) (path : WString) (s : Sys W) :
    ∃ ext, (addAllFilesAsFileIdAt os .empty path s).2.trace = s.trace ++ ext ∧ (∀ e ∈ ext, ScanEvent path e) ∧
      ∀ p, p ∈ (addAllFilesAsFileIdAt os .empty path s).1.keys ↔ Recorded ext p := by
  have hscan : Scans path (addAllSubFolderFiles os (os.pathLimit + 1) path) := scans_addAllSubFolderFiles _ (.inl rfl)
  obtain ⟨ext, ht, hext, hk⟩ := hscan .empty s
  exact ⟨ext, ht, hext, fun p => by simp [addAllFilesAsFileIdAt, hk]⟩

end WSLDVCFileDB

end Scans

/-! ## Cleaning up -/

namespace WSLDVCFileDB

/-- One file is deleted, and maybe its folder. -/
theorem deleteFile_spec (os : OS W) (path : WString) (s : Sys W) :
    ∃ ext, (deleteFile os path s).2.trace = s.trace ++ ext ∧ (∀ e ∈ ext, CleanUpEvent e) ∧
      deletedPaths ext = [path] := by
  unfold deleteFile
  rw [bind_run]
  cases hok : (DeleteFileW os path s).1 with
  | false => exact ⟨[.DeleteFileW path _], rfl, by simp [CleanUpEvent], rfl⟩
  | true =>
    cases parentDir path with
    | none => exact ⟨[.DeleteFileW path _], rfl, by simp [CleanUpEvent], rfl⟩
    | some dir =>
      simp only [if_true, bind_run, ite_run]
      split
      · exact ⟨[.DeleteFileW path _, .RemoveDirectory dir], by simp [RemoveDirectory, DeleteFileW]; rfl,
          by simp [CleanUpEvent], rfl⟩
      · exact ⟨[.DeleteFileW path _], rfl, by simp [CleanUpEvent], rfl⟩

theorem deleteEntries_spec (os : OS W) (entries : List fileEntry) (db : WSLDVCFileDB) (s : Sys W) :
    ∃ ext, (deleteEntries os entries db s).2.trace = s.trace ++ ext ∧ (∀ e ∈ ext, CleanUpEvent e) ∧
      deletedPaths ext = entries.map fileEntry.m_fileId := by
  induction entries generalizing db s with
  | nil => exact ⟨[], by simp [deleteEntries], by simp, rfl⟩
  | cons it rest ih =>
    obtain ⟨ext, ht, hext, hd⟩ := deleteFile_spec os it.m_fileId s
    obtain ⟨ext', ht', hext', hd'⟩ := ih (db.erase it.m_fileId) (deleteFile os it.m_fileId s).2
    refine ⟨ext ++ ext', ?_, fun e he => (List.mem_append.1 he).elim (hext e) (hext' e), ?_⟩
    · simp [deleteEntries, ht', ht]
    · rw [deletedPaths_append, hd, hd', List.map_cons, List.singleton_append]

end WSLDVCFileDB

/-- The end of a session, seen from its events. -/
theorem closeSync_spec (os : OS W) (cleanupFiles : Bool) (db : WSLDVCFileDB) (s : Sys W) :
    ∃ block, (closeSync os cleanupFiles db s).2.trace = s.trace ++ .OnSyncEnd cleanupFiles :: (block ++ [.syncClosed []]) ∧
      Ledger.CleanedUp {p | p ∈ db.keys} cleanupFiles block := by
  cases cleanupFiles with
  | false => exact ⟨[], by simp [closeSync, cleanUp, WSLDVCFileDB.OnClose], by simp, by simp [deletedPaths], by simp [deletedPaths]⟩
  | true =>
    obtain ⟨block, ht, hblock, hd⟩ :=
      WSLDVCFileDB.deleteEntries_spec os db.elems db { s with trace := s.trace ++ [.OnSyncEnd true] }
    refine ⟨block, ?_, hblock, ?_, fun p => ?_⟩
    · simp [closeSync, cleanUp, WSLDVCFileDB.OnClose, WSLDVCFileDB.deleteAllFileIdFiles, ht]
    · exact hd ▸ db.keys_nodup
    · rw [hd]
      exact ⟨fun h => ⟨rfl, h⟩, fun h => h.2⟩

end Wslg
