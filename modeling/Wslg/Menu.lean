import Wslg.Sync
import Wslg.TreeDisk
/-!
# The menu after a sync session

A client should remove the apps that were not reported during a sync session. Once a
session has cleaned up, every link in its menu folder is one of an app that was taken
over since the session started, or one that could not be deleted.
-/

open Lib Lib.TraceM

namespace Wslg

variable {W F : Type}

/-! ## The menu folder -/

/-- The system with links that name no icons, so that what a scan finds depends on the folders only. -/
def OS.withoutIcons (os : OS W) : OS W := { os with GetIconLocation := fun p w => (none, (os.GetIconLocation p w).2) }

section Folder

variable {os : OS W} {root : WString} (v : FolderTree os.withoutIcons root) (fileOf : WString → F)

/-- The links at and below the root. -/
def links (w : W) : Set F := {f | ∃ p, v.Link w p ∧ fileOf p = f}

/-- No link is new. -/
def NoNewLinks (s s' : Sys W) : Prop := links v fileOf s'.world ⊆ links v fileOf s.world

instance : Std.Refl (NoNewLinks v fileOf) := ⟨fun _ => subset_rfl⟩
instance : IsTrans (Sys W) (NoNewLinks v fileOf) := ⟨fun _ _ _ h h' => Set.Subset.trans h' h⟩

/-- Documented behaviour of the system, as far as the links of the menu folder go: only a file that is created can be a
new one, and a file that was deleted is gone. -/
structure MenuFolder : Prop where
  silent : Silent os (NoNewLinks v fileOf)
  CreateDirectoryW : ∀ p w, links v fileOf (os.CreateDirectoryW p w).2 ⊆ links v fileOf w
  RemoveDirectory : ∀ p w, links v fileOf (os.RemoveDirectory p w).2 ⊆ links v fileOf w
  DeleteFileW : ∀ p w, links v fileOf (os.DeleteFileW p w).2 ⊆ links v fileOf w
  DeleteFileW_ok : ∀ p w, (os.DeleteFileW p w).1 = true → fileOf p ∉ links v fileOf (os.DeleteFileW p w).2
  SaveShellLink : ∀ l w, links v fileOf (os.SaveShellLink l w).2 ⊆ insert (fileOf l.pathLink) (links v fileOf w)
  CreateFileW : ∀ p w, links v fileOf (os.CreateFileW p w).2 ⊆ insert (fileOf p) (links v fileOf w)
  WriteFile : ∀ p data w, links v fileOf (os.WriteFile p data w).2 ⊆ links v fileOf w
  ChannelWrite : ∀ bytes w, links v fileOf (os.ChannelWrite bytes w).2 ⊆ links v fileOf w
  LocalAlloc : ∀ n w, links v fileOf (os.LocalAlloc n w).2 ⊆ links v fileOf w
  SetValue : ∀ h p w, links v fileOf (os.SetValue h p w).2 ⊆ links v fileOf w

end Folder

/-! ## The scan -/

/-- `x` goes through the same worlds as `x'` and records at least what `x'` does. -/
def RecordsAtLeast (x x' : WSLDVCFileDB → SysM W WSLDVCFileDB) : Prop :=
  ∀ db db' s s', s'.world = s.world → db'.keys ⊆ db.keys →
    (x' db' s').2.world = (x db s).2.world ∧ (x' db' s').1.keys ⊆ (x db s).1.keys

namespace RecordsAtLeast

variable {x x' y y' : WSLDVCFileDB → SysM W WSLDVCFileDB}

theorem pure : RecordsAtLeast (fun db => (pure db : SysM W WSLDVCFileDB)) fun db => Pure.pure db :=
  fun _ _ _ _ hw hdb => ⟨hw, hdb⟩

theorem bind (hx : RecordsAtLeast x x') (hy : RecordsAtLeast y y') :
    RecordsAtLeast (fun db => x db >>= y) fun db => x' db >>= y' := by
  intro db db' s s' hw hdb
  obtain ⟨hw', hdb'⟩ := hx db db' s s' hw hdb
  exact hy _ _ _ _ hw' hdb'

theorem call_bind {α : Type} {f : W → α × W} {x x' : α → WSLDVCFileDB → SysM W WSLDVCFileDB}
    (h : ∀ a, RecordsAtLeast (x a) (x' a)) : RecordsAtLeast (fun db => call f >>= fun a => x a db)
      fun db => call f >>= fun a => x' a db := by
  intro db db' s s' hw hdb
  simp only [bind_run, call_run, hw]
  exact h _ db db' _ _ rfl hdb

theorem ite {c : Prop} [Decidable c] (hx : c → RecordsAtLeast x x') (hy : ¬ c → RecordsAtLeast y y') :
    RecordsAtLeast (fun db => if c then x db else y db) fun db => if c then x' db else y' db := by
  by_cases hc : c
  · simpa only [if_pos hc] using hx hc
  · simpa only [if_neg hc] using hy hc

end RecordsAtLeast

namespace WSLDVCFileDB

variable (os : OS W)

theorem recordsAtLeast_OnLnkFileAdded (lnkFile : WString) :
    RecordsAtLeast (fun db => OnLnkFileAdded os db lnkFile) fun db => OnLnkFileAdded os.withoutIcons db lnkFile := by
  intro db db' s s' hw hdb
  obtain ⟨r, hr, hkeys⟩ := FolderTree.OnLnkFileAdded_run os db lnkFile s
  obtain ⟨r', hr', hkeys'⟩ := FolderTree.OnLnkFileAdded_run os.withoutIcons db' lnkFile s'
  beta_reduce
  rw [hr, hr']
  refine ⟨by simp [OS.withoutIcons, hw], fun p hp => (hkeys p).2 ?_⟩
  rcases (hkeys' p).1 hp with h | h | h
  · exact .inl (hdb h)
  · exact .inr (.inl h)
  · cases h

theorem recordsAtLeast_addEntry {scan scan' : WString → WSLDVCFileDB → SysM W WSLDVCFileDB}
    (hscan : ∀ sub, RecordsAtLeast (scan sub) (scan' sub)) (path : WString) (data : FindData) :
    RecordsAtLeast (addEntry os scan path data) (addEntry os.withoutIcons scan' path data) := by
  refine RecordsAtLeast.ite (fun _ => RecordsAtLeast.ite (fun _ => .pure) fun _ => .call_bind fun empty => ?_)
    fun _ => RecordsAtLeast.ite (fun _ => recordsAtLeast_OnLnkFileAdded os _) fun _ => .pure
  refine RecordsAtLeast.ite (fun _ db db' s s' hw hdb => ⟨?_, hdb⟩) fun _ => hscan _
  show (os.RemoveDirectory _ s'.world).2 = (os.RemoveDirectory _ s.world).2
  rw [hw]

theorem recordsAtLeast_addEntries {scan scan' : WString → WSLDVCFileDB → SysM W WSLDVCFileDB}
    (hscan : ∀ sub, RecordsAtLeast (scan sub) (scan' sub)) (path : WString) (entries : List FindData) :
    RecordsAtLeast (addEntries os scan path entries) (addEntries os.withoutIcons scan' path entries) := by
  induction entries with
  | nil => exact .pure
  | cons data rest ih => exact (recordsAtLeast_addEntry os hscan path data).bind ih

theorem recordsAtLeast_addAllSubFolderFiles (depth : Nat) (path : WString) :
    RecordsAtLeast (addAllSubFolderFiles os depth path) (addAllSubFolderFiles os.withoutIcons depth path) := by
  induction depth generalizing path with
  | zero => exact .pure
  | succ depth ih =>
    refine .call_bind fun entries => ?_
    cases entries with
    | nil => exact recordsAtLeast_addEntries os ih path _
    | cons data rest => exact recordsAtLeast_addEntries os ih path _

end WSLDVCFileDB

/-- A scan of the root records every link. -/
theorem scan_records {os : OS W} {root : WString} (v : FolderTree os.withoutIcons root) (s : Sys W) {p : WString}
    (hp : v.Link s.world p) : p ∈ (WSLDVCFileDB.addAllFilesAsFileIdAt os .empty root s).1.keys := by
  have hb := (v.at_or_below (.inr hp.1)).resolve_left (v.file_ne_root hp.1)
  -- the root is there, as there is something below it
  have hroot : root ∈ (v.tree s.world).dirs := by
    rcases (v.closed s.world).under_cases (.inr hp.1) (FolderTree.under_of_beneath (.inl rfl) hb) with h | ⟨d, hd, h, -⟩
    · exact v.closed s.world p (.inr hp.1) root h
    · exact v.closed s.world d (.inl hd) root h
  have hscan := v.scanned_addAllFilesAsFileIdAt hroot .empty
  exact (WSLDVCFileDB.recordsAtLeast_addAllSubFolderFiles os _ root .empty .empty s s rfl (List.Subset.refl _)).2
    ((hscan.keys p).2 (.inr ⟨p, hp, hb, .inl rfl⟩))

/-! ## Replaying events -/

/-- The file that the event creates, or tries to. -/
def Event.creates? : Event → Option WString
  | .CreateShellLink link _ => some link.pathLink
  | .CreateIconFile path _ _ => some path
  | _ => none

section Replay

variable (fileOf : WString → F)

/-- The links that may be there after an event. -/
def mayBeAfterEvent (there : Set F) : Event → Set F
  | .CreateShellLink link _ => insert (fileOf link.pathLink) there
  | .CreateIconFile path _ _ => insert (fileOf path) there
  | .DeleteFileW path true => there \ {fileOf path}
  | _ => there

def mayBeAfter (there : Set F) (evs : List Event) : Set F := evs.foldl (mayBeAfterEvent fileOf) there

theorem mayBeAfter_append (there : Set F) (evs evs' : List Event) :
    mayBeAfter fileOf there (evs ++ evs') = mayBeAfter fileOf (mayBeAfter fileOf there evs) evs' := List.foldl_append

theorem mayBeAfter_mono {there there' : Set F} (h : there ⊆ there') (evs : List Event) :
    mayBeAfter fileOf there evs ⊆ mayBeAfter fileOf there' evs := by
  induction evs generalizing there there' with
  | nil => exact h
  | cons e evs ih =>
    refine ih ?_
    unfold mayBeAfterEvent
    split
    · exact Set.insert_subset_insert h
    · exact Set.insert_subset_insert h
    · exact Set.sdiff_subset_sdiff_left h
    · exact h

/-- A scan creates and deletes nothing. -/
theorem mayBeAfter_scan (there : Set F) {root : WString} {evs : List Event} (h : ∀ e ∈ evs, ScanEvent root e) :
    mayBeAfter fileOf there evs = there := by
  induction evs with
  | nil => rfl
  | cons e evs ih =>
    obtain ⟨he, hevs⟩ := List.forall_mem_cons.1 h
    have hsame : mayBeAfterEvent fileOf there e = there := by
      cases e <;> first | rfl | exact he.elim
    rw [← List.singleton_append, mayBeAfter_append]
    show mayBeAfter fileOf (mayBeAfterEvent fileOf there e) evs = there
    rw [hsame, ih hevs]

/-- A link was there before and not deleted, or else it was created. -/
theorem mem_mayBeAfter {there : Set F} {evs : List Event} {f : F} (h : f ∈ mayBeAfter fileOf there evs) :
    (f ∈ there ∧ ∀ p, .DeleteFileW p true ∈ evs → fileOf p ≠ f) ∨
      ∃ e ∈ evs, ∃ p, e.creates? = some p ∧ fileOf p = f := by
  induction evs generalizing there with
  | nil => exact .inl ⟨h, by simp⟩
  | cons e evs ih =>
    rcases ih h with ⟨hf, hdel⟩ | ⟨e', he', hcreates⟩
    · have hstep : (f ∈ there ∧ ∀ p, .DeleteFileW p true = e → fileOf p ≠ f) ∨ ∃ p, e.creates? = some p ∧ fileOf p = f := by
        unfold mayBeAfterEvent at hf
        split at hf
        · exact hf.elim (fun hf => .inr ⟨_, rfl, hf.symm⟩) fun hf => .inl ⟨hf, by simp⟩
        · exact hf.elim (fun hf => .inr ⟨_, rfl, hf.symm⟩) fun hf => .inl ⟨hf, by simp⟩
        · refine .inl ⟨hf.1, fun p hp he => hf.2 ?_⟩
          cases hp
          exact he.symm
        · rename_i hnot
          exact .inl ⟨hf, fun p hp => (hnot p hp.symm).elim⟩
      refine hstep.imp (fun ⟨hf, he⟩ => ⟨hf, fun p hp => ?_⟩) fun hcreates => ⟨e, by simp, hcreates⟩
      rcases List.mem_cons.1 hp with hp | hp
      · exact he p hp
      · exact hdel p hp
    · exact .inr ⟨e', List.mem_cons_of_mem e he', hcreates⟩

end Replay

/-! ## What the calls do to the menu folder -/

/-- The session that started, up to its end. -/
def sessionOf (post : List Event) : List Event := post.takeWhile fun | .OnSyncEnd _ => false | _ => true

section Replayed

variable {os : OS W} {root : WString} (v : FolderTree os.withoutIcons root) (fileOf : WString → F)

/-- The links are what the events leave of those that were there before, and since the start of a session of those that it
recorded. -/
def Replayed (s s' : Sys W) : Prop :=
  ∃ evs, s'.trace = s.trace ++ evs ∧ links v fileOf s'.world ⊆ mayBeAfter fileOf (links v fileOf s.world) evs ∧
    EveryAt (fun _ e post => e = .OnSyncStart root →
      links v fileOf s'.world ⊆ mayBeAfter fileOf {f | ∃ p, Recorded (sessionOf post) p ∧ fileOf p = f} post) evs

variable {v fileOf}

theorem recorded_mono {evs evs' : List Event} (h : evs ⊆ evs') {p : WString} (hp : Recorded evs p) : Recorded evs' p := by
  obtain ⟨lnkFile, iconFile, hmem, hor⟩ := hp
  exact ⟨lnkFile, iconFile, h hmem, hor⟩

theorem sessionOf_append (evs evs' : List Event) : sessionOf evs ⊆ sessionOf (evs ++ evs') := by
  intro e he
  unfold sessionOf
  rw [List.takeWhile_append]
  split
  · exact List.mem_append_left _ ((List.takeWhile_subset _) he)
  · exact he

/-- As long as it goes on. -/
theorem sessionOf_open {evs : List Event} (h : ∀ e ∈ evs, ∀ cleanupFiles, e ≠ .OnSyncEnd cleanupFiles) (rest : List Event) :
    sessionOf (evs ++ rest) = evs ++ sessionOf rest := by
  refine List.takeWhile_append_of_pos fun e he => ?_
  have hne := h e he
  cases e <;> first | rfl | exact (hne _ rfl).elim

instance : Std.Refl (Replayed v fileOf) := ⟨fun _ => ⟨[], by simp, subset_rfl, everyAt_nil⟩⟩

instance : IsTrans (Sys W) (Replayed v fileOf) := ⟨by
  rintro s s' s'' ⟨evs, ht, hlinks, hstarts⟩ ⟨evs', ht', hlinks', hstarts'⟩
  refine ⟨evs ++ evs', by rw [ht', ht, List.append_assoc], ?_, everyAt_append.2 ⟨?_, hstarts'⟩⟩
  · rw [mayBeAfter_append]
    exact hlinks'.trans (mayBeAfter_mono fileOf hlinks evs')
  -- what a session recorded it has recorded later, too
  · refine hstarts.mono fun _ e post h he => ?_
    rw [mayBeAfter_append]
    refine hlinks'.trans (mayBeAfter_mono fileOf ((h he).trans (mayBeAfter_mono fileOf ?_ post)) evs')
    rintro f ⟨p, hp, rfl⟩
    exact ⟨p, recorded_mono (sessionOf_append post evs') hp, rfl⟩⟩

/-- A call that creates nothing. -/
theorem replayed_call {α : Type} {f : W → α × W} (h : ∀ w, links v fileOf (f w).2 ⊆ links v fileOf w) :
    Keeps (Replayed v fileOf) (call f : SysM W α) := fun s => ⟨[], by simp, h s.world, everyAt_nil⟩

/-- An event that stands for no file. -/
theorem replayed_emit {e : Event} (hfile : ∀ there, mayBeAfterEvent fileOf there e = there) (hstart : e ≠ .OnSyncStart root) :
    Keeps (Replayed v fileOf) (emit e : SysM W PUnit) :=
  fun _ => ⟨[e], rfl, (hfile _).ge, everyAt_singleton.2 fun h => (hstart h).elim⟩

/-- One event, whatever becomes of the links. -/
theorem replayed_one {s s' : Sys W} {e : Event} (ht : s'.trace = s.trace ++ [e]) (hstart : e ≠ .OnSyncStart root)
    (h : links v fileOf s'.world ⊆ mayBeAfterEvent fileOf (links v fileOf s.world) e) : Replayed v fileOf s s' :=
  ⟨[e], ht, h, everyAt_singleton.2 fun he => (hstart he).elim⟩

variable (menu : MenuFolder v fileOf)

include menu

theorem replayed_silent : Silent os (Replayed v fileOf) where
  SHGetKnownFolderPath := replayed_call fun w => menu.silent.SHGetKnownFolderPath ⟨w, []⟩
  GetTempPathW n := replayed_call fun w => menu.silent.GetTempPathW n ⟨w, []⟩
  PathIsDirectoryEmptyW p := replayed_call fun w => menu.silent.PathIsDirectoryEmptyW p ⟨w, []⟩
  FindFirstFile p := replayed_call fun w => menu.silent.FindFirstFile p ⟨w, []⟩
  GetIconLocation p := replayed_call fun w => menu.silent.GetIconLocation p ⟨w, []⟩
  CLSIDFromString g := replayed_call fun w => menu.silent.CLSIDFromString g ⟨w, []⟩
  RegOpenKeyExW := replayed_call fun w => menu.silent.RegOpenKeyExW ⟨w, []⟩
  RegGetValueW b := replayed_call fun w => menu.silent.RegGetValueW b ⟨w, []⟩
  ExpandEnvironmentStringsW p := replayed_call fun w => menu.silent.ExpandEnvironmentStringsW p ⟨w, []⟩
  GetLocaleInfoA i := replayed_call fun w => menu.silent.GetLocaleInfoA i ⟨w, []⟩
  CreateInstance := replayed_call fun w => menu.silent.CreateInstance ⟨w, []⟩
  EnumWindows := replayed_call fun w => menu.silent.EnumWindows ⟨w, []⟩
  SHGetPropertyStoreForWindow h := replayed_call fun w => menu.silent.SHGetPropertyStoreForWindow h ⟨w, []⟩
  InitPropVariant p := replayed_call fun w => menu.silent.InitPropVariant p ⟨w, []⟩

theorem replayed_DeleteFileW (p : WString) : Keeps (Replayed v fileOf) (DeleteFileW os p) := by
  intro s
  refine replayed_one (e := .DeleteFileW p (os.DeleteFileW p s.world).1) rfl (by simp) ?_
  have hkeep := menu.DeleteFileW p s.world
  have hok := menu.DeleteFileW_ok p s.world
  show links v fileOf (os.DeleteFileW p s.world).2 ⊆ _
  cases hb : (os.DeleteFileW p s.world).1 with
  | false => exact hkeep
  | true => exact fun f hf => ⟨hkeep hf, fun he => hok hb (he ▸ hf)⟩

theorem replayed_CreateShellLink (link : ShellLink) : Keeps (Replayed v fileOf) (CreateShellLink os link) := by
  intro s
  obtain ⟨l, hl, ht⟩ := CreateShellLink_run os link s
  rw [ht]
  exact replayed_one rfl (by simp) (menu.SaveShellLink l s.world)

/-- The file may be there even if it could not be written. -/
theorem replayed_CreateIconFile (data : List BYTE) (path : WString) :
    Keeps (Replayed v fileOf) (CreateIconFile os data path) := by
  intro s
  have hcreate := menu.CreateFileW path s.world
  have hwrite := menu.WriteFile path data (os.CreateFileW path s.world).2
  cases hb : (os.CreateFileW path s.world).1 with
  | false =>
    rw [CreateIconFile_closed hb]
    exact replayed_one rfl (by simp) hcreate
  | true =>
    rw [CreateIconFile_opened hb]
    exact replayed_one rfl (by simp) (hwrite.trans hcreate)

theorem respected_replayed : Respected os (Replayed v fileOf) where
  toSilent := replayed_silent menu
  CreateDirectoryW p := (replayed_emit (fun _ => rfl) (by simp)).bind fun _ => replayed_call (menu.CreateDirectoryW p)
  RemoveDirectory p := (replayed_emit (fun _ => rfl) (by simp)).bind fun _ => replayed_call (menu.RemoveDirectory p)
  DeleteFileW := replayed_DeleteFileW menu
  CreateIconFile := replayed_CreateIconFile menu
  CreateShellLink := replayed_CreateShellLink menu
  ChannelWrite bytes := (replayed_emit (fun _ => rfl) (by simp)).bind fun _ => replayed_call (menu.ChannelWrite bytes)
  LocalAlloc n := (replayed_call (menu.LocalAlloc n)).bind fun _ => (replayed_emit (fun _ => rfl) (by simp)).bind
    fun _ => Keeps.pure _
  SetValue h p := (replayed_emit (fun _ => rfl) (by simp)).bind fun _ => replayed_call (menu.SetValue h p)
  mark e he := replayed_emit (fun _ => by cases e <;> first | rfl | exact he.elim) fun h => by
    subst h
    exact he

/-- A session starts with all the links of the folder recorded. -/
theorem replayed_scan (s : Sys W) (path : WString) :
    Replayed v fileOf s (WSLDVCFileDB.addAllFilesAsFileIdAt os .empty path ⟨s.world, s.trace ++ [.OnSyncStart path]⟩).2 := by
  obtain ⟨scan, ht, hscan, hk⟩ := WSLDVCFileDB.addAllFilesAsFileIdAt_spec os path ⟨s.world, s.trace ++ [.OnSyncStart path]⟩
  -- the scan creates nothing
  have hnew : NoNewLinks v fileOf ⟨s.world, s.trace ++ [.OnSyncStart path]⟩
      (WSLDVCFileDB.addAllFilesAsFileIdAt os .empty path ⟨s.world, s.trace ++ [.OnSyncStart path]⟩).2 :=
    WSLDVCFileDB.keeps_addAllSubFolderFiles menu.silent (fun p s => menu.RemoveDirectory p s.world)
      (fun _ _ _ => subset_rfl) _ _ _ _
  refine ⟨.OnSyncStart path :: scan, by rw [ht, List.append_assoc]; rfl, ?_, everyAt_cons.2 ⟨?_, ?_⟩⟩
  · show _ ⊆ mayBeAfter fileOf (links v fileOf s.world) ([.OnSyncStart path] ++ scan)
    rw [mayBeAfter_append, mayBeAfter_scan fileOf _ hscan]
    exact hnew
  · rintro ⟨⟩
    rw [mayBeAfter_scan fileOf _ hscan]
    refine hnew.trans ?_
    rintro f ⟨p, hp, rfl⟩
    refine ⟨p, ?_, rfl⟩
    have hopen : ∀ e ∈ scan, ∀ cleanupFiles, e ≠ .OnSyncEnd cleanupFiles := by
      rintro e he c rfl
      exact hscan _ he
    have hall : sessionOf scan = scan := by simpa [sessionOf] using sessionOf_open hopen []
    rw [hall]
    exact (hk p).1 (scan_records v ⟨s.world, _⟩ hp)
  · refine everyAt_of_forall fun e he _ _ hstart => ?_
    subst hstart
    exact (hscan _ he).elim

theorem replayed_OnSyncStart : Preserves (Frame (SameOn WSLDVCCallback.noDb) (Replayed v fileOf)) (OnSyncStart os) := by
  intro m
  refine outcome_getThis_bind (Outcome.bind (outcome_failWhen (fun _ => ?_) fun _ _ => refl_of _ m))
  have hcreate : Replayed v fileOf m.sys ⟨(os.CreateInstance m.sys.world).2, m.sys.trace⟩ :=
    (replayed_silent menu).CreateInstance m.sys
  refine Outcome.bind (outcome_sys (Outcome.bind (outcome_check (fun _ => ?_) fun _ _ => ⟨rfl, hcreate⟩)))
  refine Outcome.bind (outcome_sys (Outcome.bind (outcome_sys (Outcome.update_iff.2 ?_))))
  exact ⟨rfl, trans_of (Replayed v fileOf) hcreate (replayed_scan menu _ _)⟩

theorem Reachable.replayed {Ok : Reading (Machine W) → Prop} {m : Machine W} (h : Reachable os Ok m) :
    ∃ w, Replayed v fileOf ⟨w, []⟩ m.sys :=
  h.keeps_of (respected_replayed menu) (replayed_OnSyncStart menu)

end Replayed

/-! ## After the clean-up -/

/-- The update `u` names the file. -/
def AppUpdate.Creates (u : AppUpdate) (path : WString) : Prop := path = u.linkPath ∨ path = u.iconPath

/-- Whatever is created belongs to an app that is taken over right behind it. -/
theorem Ledger.Steps.creates {l : Ledger} (h : Steps .empty l) :
    EveryAt (fun _ e post => ∀ p, e.creates? = some p → ∃ u, .updated u ∈ post ∧ u.Creates p) l.trace := by
  induction h with
  | refl => exact everyAt_nil
  | @tail l₁ l₂ _ hstep ih =>
    have hextend : ∀ evs, EveryAt (fun _ e post => ∀ p, e.creates? = some p → ∃ u, .updated u ∈ post ∧ u.Creates p) evs →
        EveryAt (fun _ e post => ∀ p, e.creates? = some p → ∃ u, .updated u ∈ post ∧ u.Creates p) (l₁.trace ++ evs) := by
      refine fun evs hevs => ih.append (fun _ _ _ _ h => h) (fun y a e b h p hp => ?_) hevs
      obtain ⟨u, hu, hcreates⟩ := h p hp
      exact ⟨u, List.mem_append_left _ hu, hcreates⟩
    have hnone : ∀ evs : List Event, (∀ e ∈ evs, e.creates? = none) →
        EveryAt (fun _ e post => ∀ p, e.creates? = some p → ∃ u, .updated u ∈ post ∧ u.Creates p) (l₁.trace ++ evs) := by
      refine fun evs hevs => hextend evs (everyAt_of_forall fun e he _ _ p hp => ?_)
      rw [hevs e he] at hp
      cases hp
    cases hstep with
    | quiet hq =>
      refine hnone _ fun e he => ?_
      have := hq e he
      cases e <;> first | rfl | exact this.elim
    | start _ hscan =>
      refine hnone _ (List.forall_mem_cons.2 ⟨rfl, fun e he => ?_⟩)
      have := hscan e he
      cases e <;> first | rfl | exact this.elim
    | @report u files _ _ hfiles =>
      refine hextend _ (everyAt_append.2 ⟨everyAt_of_forall fun e he _ _ p hp => ⟨u, by simp, ?_⟩,
        everyAt_singleton.2 fun p hp => by cases hp⟩)
      -- the icon file and the link
      cases hfiles with
      | link hl _ =>
        obtain rfl := List.mem_singleton.1 he
        exact .inl ((Option.some.inj hp).symm.trans hl)
      | icon hl =>
        rcases List.mem_pair.1 he with rfl | rfl
        · exact .inr (Option.some.inj hp).symm
        · exact .inl ((Option.some.inj hp).symm.trans hl)
    | delete _ hlink hicon =>
      refine hnone _ (List.forall_mem_append.2 ⟨List.forall_mem_append.2 ⟨fun e he => ?_, fun e he => ?_⟩, by simp [Event.creates?]⟩)
      · obtain ⟨-, ok, rfl⟩ := hlink.events e he
        rfl
      · obtain ⟨-, ok, rfl⟩ := hicon.events e he
        rfl
    | close _ hclean =>
      refine hnone _ (List.forall_mem_cons.2 ⟨rfl, List.forall_mem_append.2 ⟨fun e he => ?_, by simp [Event.creates?]⟩⟩)
      have := hclean.events e he
      cases e <;> first | rfl | exact this.elim
    | shut => exact ih

/-- Once a session has cleaned up, each link of its menu folder is of an app that was taken over since the session started,
or it could not be deleted. -/
def NoStaleLinks {os : OS W} {root : WString} (v : FolderTree os.withoutIcons root) (fileOf : WString → F) (m : Machine W) :
    Prop :=
  ∀ pre post, m.sys.trace = pre ++ .OnSyncEnd true :: post → ∃ before path scan mid block after,
    pre = before ++ .OnSyncStart path :: (scan ++ mid) ∧ (∀ e ∈ scan, ScanEvent path e) ∧ (∀ e ∈ mid, ¬ SessionEvent e) ∧
      post = block ++ .syncClosed [] :: after ∧ (∀ e ∈ block, CleanUpEvent e) ∧
        (path = root → ∀ f ∈ links v fileOf m.sys.world,
          (∃ u path, .updated u ∈ mid ++ after ∧ u.Creates path ∧ fileOf path = f) ∨
            ∃ path, .DeleteFileW path false ∈ block ∧ fileOf path = f)

/-- In every run a clean-up leaves no stale link, and none comes back. -/
theorem no_stale_links {os : OS W} {root : WString} {v : FolderTree os.withoutIcons root} {fileOf : WString → F}
    (menu : MenuFolder v fileOf) {m : Machine W} (h : Reachable os anyMessage m) : NoStaleLinks v fileOf m := by
  intro pre post ht
  obtain ⟨before, path, scan, mid, block, after, rfl, hscan, hmid, rfl, hblock, -, hdel⟩ := h.ended ht
  refine ⟨before, path, scan, mid, block, after, rfl, hscan, hmid, rfl, hblock, ?_⟩
  rintro rfl f hf
  have htrace : m.sys.trace = before ++ .OnSyncStart path ::
      (scan ++ mid ++ .OnSyncEnd true :: (block ++ .syncClosed [] :: after)) := by
    rw [ht]
    simp
  -- an update is neither of the scan nor of the clean-up
  have htaken : ∀ u, .updated u ∈ scan ++ mid ++ .OnSyncEnd true :: (block ++ .syncClosed [] :: after) →
      .updated u ∈ mid ++ after := by
    intro u hu
    simp only [List.mem_append, List.mem_cons, reduceCtorEq, false_or] at hu ⊢
    rcases hu with (hu | hu) | hu | hu
    · exact (hscan _ hu).elim
    · exact .inl hu
    · exact (hblock _ hu).elim
    · exact .inr hu
  obtain ⟨w, evs, hevs, -, hstarts⟩ := h.replayed menu
  rw [List.nil_append] at hevs
  subst hevs
  have hopen : ∀ e ∈ scan ++ mid, ∀ cleanupFiles, e ≠ .OnSyncEnd cleanupFiles := by
    rintro e he c rfl
    rcases List.mem_append.1 he with he | he
    · exact hscan _ he
    · exact hmid _ he trivial
  have hlinks := hstarts _ _ _ htrace rfl hf
  rw [sessionOf_open hopen, show sessionOf (.OnSyncEnd true :: _) = [] from rfl, List.append_nil] at hlinks
  rcases mem_mayBeAfter fileOf hlinks with ⟨⟨p, hp, rfl⟩, hkept⟩ | ⟨e, he, p, hp, rfl⟩
  -- it was there when the session started
  · have hrec : Recorded scan p := by
      obtain ⟨lnkFile, iconFile, hmem, hor⟩ := hp
      rcases List.mem_append.1 hmem with hmem | hmem
      · exact ⟨lnkFile, iconFile, hmem, hor⟩
      · exact (hmid _ hmem trivial).elim
    by_cases hspared : Spared mid p
    · obtain ⟨u, hu, -, hnames⟩ := hspared
      exact .inl ⟨u, p, List.mem_append_left _ hu, hnames.imp_right And.right, rfl⟩
    · obtain ⟨e, he, hpath⟩ := List.mem_filterMap.1 ((hdel p).2 ⟨rfl, hrec, hspared⟩)
      cases e <;> cases hpath
      rename_i ok
      cases ok with
      | false => exact .inr ⟨p, he, rfl⟩
      | true => exact (hkept p (by simp [he]) rfl).elim
  -- or it was created since
  · obtain ⟨b₁, b₂, hb⟩ := List.append_of_mem he
    obtain ⟨u, hu, hcreates⟩ := h.steps.creates (before ++ .OnSyncStart path :: b₁) e b₂
      (by simpa [Machine.ledger, hb] using htrace) p hp
    exact .inl ⟨u, p, htaken u (hb ▸ by simp [hu]), hcreates, rfl⟩

/-! ### On a disk -/

/-- A file in one of the folders. -/
def TreeDisk.addFile {root : WString} (w : TreeDisk root) (p : WString) : TreeDisk root :=
  if h : ProperEntry root w.dirs p ∧ (w.dirs ++ w.files).all (fun q => q ≠ p) = true then
    { w with
      files := w.files ++ [p]
      once := by
        rw [← List.append_assoc]
        refine w.once.append (List.nodup_singleton p) (List.disjoint_singleton.2 fun hp => ?_)
        simpa using List.all_eq_true.1 h.2 p hp
      properFile := fun q hq => (List.mem_append.1 hq).elim (w.properFile q) fun hq => List.mem_singleton.1 hq ▸ h.1 }
  else w

/-- The menu folder of the provider `U`. -/
def menuOfU : WString := L "C:\\S\\Programs\\U"

def writableOS : OS (TreeDisk menuOfU) :=
  { treeOS menuOfU fun _ => none with
    SHGetKnownFolderPath := fun w => (some (L "C:\\S"), w)
    GetTempPathW := fun _ w => ((5, L "C:\\T\\"), w)
    CreateDirectoryW := fun _ w => (.created, w)
    SaveShellLink := fun l w => (true, w.addFile l.pathLink)
    CreateFileW := fun p w => (true, w.addFile p)
    WriteFile := fun _ _ w => (true, w)
    CLSIDFromString := fun s w => (clsidOf s, w)
    RegOpenKeyExW := fun w => (none, w)
    RegGetValueW := fun _ w => ((none, L "C:\\W"), w)
    ExpandEnvironmentStringsW := fun _ w => ((true, L "C:\\W"), w)
    ChannelWrite := fun _ w => (none, w)
    LocalAlloc := fun _ w => (true, w) }

def writableTree : FolderTree writableOS.withoutIcons menuOfU where
  tree := TreeDisk.tree
  icon _ := none
  inFolder := (folderTree menuOfU fun _ => none).inFolder
  lists := (folderTree menuOfU fun _ => none).lists
  isEmpty := (folderTree menuOfU fun _ => none).isEmpty
  iconOf _ _ := rfl
  FindFirstFile _ _ := rfl
  PathIsDirectoryEmptyW _ _ := rfl
  GetIconLocation _ _ := rfl
  RemoveDirectory := (folderTree menuOfU fun _ => none).RemoveDirectory

theorem links_addFile (w : TreeDisk menuOfU) (p : WString) :
    links writableTree id (w.addFile p) ⊆ insert p (links writableTree id w) := by
  rintro _ ⟨q, ⟨hq, hlink⟩, rfl⟩
  have hmem : q ∈ (w.addFile p).files := hq
  unfold TreeDisk.addFile at hmem
  split at hmem
  · rcases List.mem_append.1 hmem with hmem | hmem
    · exact .inr ⟨q, ⟨hmem, hlink⟩, rfl⟩
    · exact .inl (List.mem_singleton.1 hmem)
  · exact .inr ⟨q, ⟨hmem, hlink⟩, rfl⟩

theorem links_removeFile (w : TreeDisk menuOfU) (p : WString) :
    links writableTree id (w.removeFile p) ⊆ links writableTree id w \ {p} := by
  rintro _ ⟨q, ⟨hq, hlink⟩, rfl⟩
  obtain ⟨hmem, hne⟩ := List.mem_filter.1 hq
  exact ⟨⟨q, ⟨hmem, hlink⟩, rfl⟩, by simpa using hne⟩

theorem links_removeDir (w : TreeDisk menuOfU) (d : WString) :
    links writableTree id (w.removeDir d) ⊆ links writableTree id w := by
  rintro _ ⟨q, ⟨hq, hlink⟩, rfl⟩
  have hmem : q ∈ (w.removeDir d).files := hq
  unfold TreeDisk.removeDir at hmem
  split at hmem
  · exact ⟨q, ⟨hmem, hlink⟩, rfl⟩
  · exact ⟨q, ⟨hmem, hlink⟩, rfl⟩

theorem menuFolder_writable : MenuFolder writableTree id where
  silent := by constructor <;> intros <;> exact fun _ => subset_rfl
  CreateDirectoryW _ _ := subset_rfl
  RemoveDirectory p w := links_removeDir w p
  DeleteFileW p w := (links_removeFile w p).trans Set.sdiff_subset
  DeleteFileW_ok p w _ h := (links_removeFile w p h).2 rfl
  SaveShellLink l w := links_addFile w l.pathLink
  CreateFileW p w := links_addFile w p
  WriteFile _ _ _ := subset_rfl
  ChannelWrite _ _ := subset_rfl
  LocalAlloc _ _ := subset_rfl
  SetValue _ _ _ := subset_rfl

def oldLinks : TreeDisk menuOfU where
  dirs := [menuOfU]
  files := [menuOfU ++ L "\\foo.lnk", menuOfU ++ L "\\old.lnk"]
  once := by decide
  properDir := by decide
  properFile := by decide
  short := by decide

/-- Of two old links one is reported again, and another app is new. -/
theorem no_stale_links_on_disk :
    let m := (OnDataReceived writableOS (capsMessage (L "U") ++
      (updateMessage (RDPAPPLIST_HINT_SYNC_START ||| RDPAPPLIST_HINT_SYNC) (L "a") (L "foo") ++
        updateMessage (RDPAPPLIST_HINT_SYNC ||| RDPAPPLIST_HINT_SYNC_END) (L "b") (L "bar"))) (.fresh oldLinks)).machine
    NoStaleLinks writableTree id m ∧ .OnSyncStart menuOfU ∈ m.sys.trace ∧ .OnSyncEnd true ∈ m.sys.trace ∧
      m.sys.world.files = [menuOfU ++ L "\\foo.lnk", menuOfU ++ L "\\bar.lnk"] := by
  intro m
  refine ⟨no_stale_links menuFolder_writable ?_, by decide +kernel⟩
  exact reachable_OnDataReceived _ (fun _ _ => trivial) (.fresh oldLinks)

end Wslg
