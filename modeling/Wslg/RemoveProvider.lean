import Wslg.CleanUp
/-!
# Removing a provider

`dllmain.cpp`: `RemoveAppProvider` builds the folder of a provider as CAPS does, but
checks nothing of the name. It deletes the links below that folder with the icon
files they name, and the folders that this leaves empty.
-/

open Lib Lib.TraceM

namespace Wslg

variable {W : Type}

def E_INVALIDARG : HRESULT := .os 0x80070057

/-- `present` is what `IsDirectoryPresent` finds. No name is the null pointer. -/
def RemoveAppProvider (os : OS W) (present : WString → W → Bool × W) (appProvider : Option WString) :
    SysM W (Option HRESULT) := do
  match appProvider with
  | none => return some E_INVALIDARG
  | some appProvider =>
    let r ← BuildMenuPath os MAX_PATH [] appProvider false
    match r.1 with
    | some hr => return some hr
    | none =>
      if ← call (present r.2) then
        match ← call os.CreateInstance with
        | some hr => return some hr
        | none =>
          let db ← removeAll os r.2
          let _ := db.OnClose
          return none
      else return none

/-! ## What the scan finds -/

/-- A link in `root` or further down, or a folder. -/
def Finds (root : WString) : Event → Prop
  | .RemoveDirectory d => Within root d
  | .OnLnkFileAdded lnk _ => ∃ d n, Within root d ∧ (∀ c ∈ n, isSep c = false) ∧ lnk = d ++ L "\\" ++ n ∧ Named dot n ∧
      n ≠ L ".."
  | _ => False

namespace WSLDVCFileDB

variable {os : OS W} {root : WString}

theorem finds_addEntry {scan : WString → WSLDVCFileDB → SysM W WSLDVCFileDB}
    (hscan : ∀ path, Within root path → ∀ db, Keeps (Appends (Finds root)) (scan path db)) {path : WString}
    (hp : Within root path) (data : FindData) (db : WSLDVCFileDB) :
    Keeps (Appends (Finds root)) (addEntry os scan path data db) := by
  refine Keeps.ite (fun _ => Keeps.ite (fun _ => Keeps.pure _) fun hdots => ?_) fun hd => Keeps.ite (fun hext => ?_) fun _ =>
    Keeps.pure _
  · obtain ⟨q, hq, hc, -⟩ := hp.entry data.noSep fun h => hdots (.inr h)
    have hsub : Within root (path ++ L "\\" ++ data.cFileName) := .inr ⟨q, hq, hc⟩
    refine (appends_call _).bind fun _ => Keeps.ite (fun _ => ?_) fun _ => hscan _ hsub db
    exact (appends_RemoveDirectory os hsub).bind fun _ => Keeps.pure _
  · have hlink : ∀ i, Finds root (.OnLnkFileAdded (path ++ L "\\" ++ data.cFileName) i) := fun _ =>
      ⟨path, data.cFileName, hp, data.noSep, rfl, named_of_extension hext, (data.notDots (by simpa using hd)).2⟩
    exact keeps_OnLnkFileAdded (silent_appends os _) (fun i => appends_emit (hlink i)) db

theorem finds_addEntries {scan : WString → WSLDVCFileDB → SysM W WSLDVCFileDB}
    (hscan : ∀ path, Within root path → ∀ db, Keeps (Appends (Finds root)) (scan path db)) {path : WString}
    (hp : Within root path) (entries : List FindData) (db : WSLDVCFileDB) :
    Keeps (Appends (Finds root)) (addEntries os scan path entries db) := by
  induction entries generalizing db with
  | nil => exact Keeps.pure _
  | cons d ds ih => exact (finds_addEntry hscan hp d db).bind fun db => ih db

theorem finds_addAllSubFolderFiles (depth : Nat) {path : WString} (hp : Within root path) (db : WSLDVCFileDB) :
    Keeps (Appends (Finds root)) (addAllSubFolderFiles os depth path db) := by
  induction depth generalizing path db with
  | zero => exact Keeps.pure _
  | succ depth ih =>
    refine (appends_call _).bind fun entries => ?_
    cases entries with
    | nil => exact finds_addEntries (fun _ h => ih h) hp _ _
    | cons e es => exact finds_addEntries (fun _ h => ih h) hp _ _

/-! ## What the clean-up takes -/

/-- The file, and the folder it was in. -/
def Takes (path : WString) (e : Event) : Prop :=
  (∃ ok, e = .DeleteFileW path ok) ∨ ∃ d, e = .RemoveDirectory d ∧ parentDir path = some d

theorem takes_deleteFile (os : OS W) (path : WString) : Keeps (Appends (Takes path)) (deleteFile os path) := by
  refine (appends_DeleteFileW os fun ok => .inl ⟨ok, rfl⟩).bind fun _ => Keeps.ite (fun _ => ?_) fun _ => Keeps.pure _
  cases hd : parentDir path with
  | none => exact Keeps.pure _
  | some d =>
    refine (appends_call _).bind fun _ => Keeps.ite (fun _ => ?_) fun _ => Keeps.pure _
    exact (appends_RemoveDirectory os (.inr ⟨d, rfl, hd⟩)).bind fun _ => Keeps.pure _

theorem takes_deleteEntries (os : OS W) {P : WString → Prop} (entries : List fileEntry)
    (h : ∀ e ∈ entries, P e.m_fileId) (db : WSLDVCFileDB) :
    Keeps (Appends fun e => ∃ path, P path ∧ Takes path e) (deleteEntries os entries db) := by
  induction entries generalizing db with
  | nil => exact Keeps.pure _
  | cons it rest ih =>
    rw [List.forall_mem_cons] at h
    refine Keeps.bind ?_ fun _ => ih h.2 _
    exact (takes_deleteFile os it.m_fileId).mono fun _ _ ht => ht.mono fun e he => ⟨_, h.1, he⟩

end WSLDVCFileDB

/-- The scan comes first, and then what it recorded goes. -/
theorem removeAll_spec (os : OS W) (path : WString) (s : Sys W) : ∃ scan clean,
    (removeAll os path s).2.trace = s.trace ++ (scan ++ clean) ∧ (∀ e ∈ scan, Finds path e) ∧
      ∀ e ∈ clean, ∃ p, Recorded scan p ∧ WSLDVCFileDB.Takes p e := by
  obtain ⟨scan, ht, -, hkeys⟩ := WSLDVCFileDB.addAllFilesAsFileIdAt_spec os path s
  have hscan : Keeps (Appends (Finds path)) (WSLDVCFileDB.addAllSubFolderFiles os (os.pathLimit + 1) path .empty) :=
    WSLDVCFileDB.finds_addAllSubFolderFiles _ (.inl rfl) _
  obtain ⟨scan', ht', hfinds⟩ := hscan s
  obtain rfl : scan' = scan := List.append_cancel_left (ht'.symm.trans ht)
  have hrecorded : ∀ e ∈ (WSLDVCFileDB.addAllFilesAsFileIdAt os .empty path s).1.elems, Recorded scan' e.m_fileId :=
    fun e he => (hkeys e.m_fileId).1 (List.mem_map_of_mem he)
  obtain ⟨clean, hc, hclean⟩ := WSLDVCFileDB.takes_deleteEntries os _ hrecorded
    (WSLDVCFileDB.addAllFilesAsFileIdAt os .empty path s).1 (WSLDVCFileDB.addAllFilesAsFileIdAt os .empty path s).2
  refine ⟨scan', clean, ?_, hfinds, hclean⟩
  rw [ht, List.append_assoc] at hc
  exact hc

/-! ## Below the folder of one provider -/

/-- `p` is the folder `name` of `programs`, or lies below it. -/
def InProgram (programs name p : WString) : Prop :=
  ∃ cs, resolve isSep dot p = resolve isSep dot programs ++ name :: cs

/-- The icon file of a link of the program, as the scan noted it. -/
def IconOf (programs name : WString) (evs : List Event) (icon : WString) : Prop :=
  ∃ lnk, .OnLnkFileAdded lnk (some icon) ∈ evs ∧ InProgram programs name lnk

theorem InProgram.within {programs name path p : WString} (h : InProgram programs name path) (hp : Within path p) :
    InProgram programs name p := by
  obtain ⟨cs, hcs⟩ := h
  rcases hp with rfl | ⟨q, rfl, hq⟩
  · exact ⟨cs, hcs⟩
  · have hres : resolve isSep dot (path ++ 92 :: q) = _ := resolve_append rfl hq
    refine ⟨cs ++ (pathComponents q).filter (Named dot), ?_⟩
    rw [hres, hcs]
    simp

/-- The folder is named by a component of what is added to the path. -/
theorem inProgram_of_strictlyBelow {programs provider : WString}
    (h : StrictlyBelow isSep dot programs (programs ++ 92 :: provider)) :
    ∃ name ∈ pathComponents provider, (Named dot name ∧ name ≠ L "..") ∧
      InProgram programs name (programs ++ 92 :: provider) := by
  obtain ⟨cs, hne, hcs⟩ := h
  obtain ⟨name, cs, rfl⟩ := List.exists_cons_of_ne_nil hne
  have hmem : name ∈ resolve isSep dot (programs ++ 92 :: provider) := by
    rw [hcs]
    exact List.mem_append_right _ List.mem_cons_self
  have hdrop : name ∈ (resolve isSep dot (programs ++ 92 :: provider)).drop (resolve isSep dot programs).length := by
    rw [hcs, List.drop_left]
    exact List.mem_cons_self
  have hfold : (pathComponents provider).foldl (resolveStep dot) (resolve isSep dot programs) =
      resolve isSep dot (programs ++ 92 :: provider) := by
    rw [resolve, resolve, components_append rfl, List.foldl_append]
  -- what the provider adds comes from its own components, since the folder of programs is kept
  rcases mem_foldl_resolveStep hfold hdrop with h | h
  · rw [List.drop_length] at h
    cases h
  · exact ⟨name, h, named_of_mem_resolve hmem, cs, hcs⟩

/-- All the links found are of the program. -/
theorem inProgram_of_finds {programs name path : WString} (h : InProgram programs name path) {lnk : WString}
    {icon : Option WString} (hf : Finds path (.OnLnkFileAdded lnk icon)) :
    InProgram programs name lnk ∧ ∀ d, WSLDVCFileDB.parentDir lnk = some d → InProgram programs name d := by
  obtain ⟨d, n, hd, hsep, rfl, -, hdots⟩ := hf
  obtain ⟨q, hq, hc, -⟩ := hd.entry hsep hdots
  refine ⟨h.within (.inr ⟨q, hq, hc⟩), fun d' hd' => ?_⟩
  have hparent : WSLDVCFileDB.parentDir (d ++ L "\\" ++ n) = some d :=
    parentDir_iff.2 ⟨n, fun hn => by simpa [isSep] using hsep 92 hn, rfl⟩
  obtain rfl : d = d' := Option.some.inj (hparent.symm.trans hd')
  exact h.within hd

/-- What the clean-up takes is of the program, or goes with an icon file of it. -/
theorem takes_inProgram {programs name path : WString} (h : InProgram programs name path) {scan : List Event}
    (hscan : ∀ e ∈ scan, Finds path e) {p : WString} {e : Event} (hp : Recorded scan p) (he : WSLDVCFileDB.Takes p e) :
    (∀ q ok, e = .DeleteFileW q ok → InProgram programs name q ∨ IconOf programs name scan q) ∧
      ∀ d, e = .RemoveDirectory d → InProgram programs name d ∨
        ∃ icon, IconOf programs name scan icon ∧ WSLDVCFileDB.parentDir icon = some d := by
  obtain ⟨lnk, icon, hmem, hpath⟩ := hp
  obtain ⟨hlnk, hdir⟩ := inProgram_of_finds h (hscan _ hmem)
  constructor
  · rintro q ok rfl
    -- a deleted file is one that was recorded
    obtain rfl : q = p := by
      rcases he with ⟨ok', hq⟩ | ⟨d, hq, -⟩
      · exact (Event.DeleteFileW.inj hq).1
      · cases hq
    rcases hpath with rfl | rfl
    · exact .inl hlnk
    · exact .inr ⟨lnk, hmem, hlnk⟩
  · rintro d rfl
    -- a removed folder is the parent of one
    have hparent : WSLDVCFileDB.parentDir p = some d := by
      rcases he with ⟨ok', hq⟩ | ⟨d', hq, hparent⟩
      · cases hq
      · rw [Event.RemoveDirectory.inj hq]
        exact hparent
    rcases hpath with rfl | rfl
    · exact .inl (hdir d hparent)
    · exact .inr ⟨p, ⟨lnk, hmem, hlnk⟩, hparent⟩

/-- Nothing happens before the folder is known. -/
theorem RemoveAppProvider_trace (os : OS W) (present : WString → W → Bool × W) (provider : WString) {startMenu : WString}
    {s : Sys W} (hmenu : (os.SHGetKnownFolderPath s.world).1 = some startMenu) :
    (RemoveAppProvider os present (some provider) s).2.trace = s.trace ∨ ∃ s' : Sys W, s'.trace = s.trace ∧
      (RemoveAppProvider os present (some provider) s).2.trace =
        (removeAll os (startMenu ++ L "\\Programs\\" ++ provider) s').2.trace := by
  have hmenu' : BuildMenuPath os MAX_PATH [] provider false s =
      (match swprintf_s MAX_PATH (startMenu ++ L "\\Programs\\" ++ provider) with
      | none => (some .E_FAIL, [])
      | some path => (none, path), ⟨(os.SHGetKnownFolderPath s.world).2, s.trace⟩) := by
    rw [BuildMenuPath, bind_run, call_run, hmenu]
    dsimp only
    cases swprintf_s MAX_PATH (startMenu ++ L "\\Programs\\" ++ provider) with
    | none => rfl
    | some path => rfl
  rw [RemoveAppProvider]
  dsimp only
  rw [bind_run, hmenu']
  cases hpath : swprintf_s MAX_PATH (startMenu ++ L "\\Programs\\" ++ provider) with
  -- too long
  | none => exact .inl rfl
  | some path =>
    obtain ⟨-, rfl⟩ := swprintf_s_some.1 hpath
    dsimp only
    rw [bind_run, ite_run]
    split
    · rw [bind_run]
      generalize hcall : call os.CreateInstance (call (present (startMenu ++ L "\\Programs\\" ++ provider))
        ⟨(os.SHGetKnownFolderPath s.world).2, s.trace⟩).2 = r
      have ht : r.2.trace = s.trace := by
        rw [← hcall]
        rfl
      obtain ⟨hr, t⟩ := r
      cases hr with
      | some hr => exact .inl ht
      | none => exact .inr ⟨t, ht, rfl⟩
    · exact .inl rfl

/-- If the path that is built lies strictly below the folder of all programs, in a
folder `name` of it, what is deleted are links in `name` and the icon files they
name, and what is removed are folders in `name` and those of these icon files. -/
theorem removes_one_provider {os : OS W} {present : WString → W → Bool × W} {provider startMenu : WString} {s : Sys W}
    (hmenu : (os.SHGetKnownFolderPath s.world).1 = some startMenu)
    (hbelow : StrictlyBelow isSep dot (startMenu ++ L "\\Programs") (startMenu ++ L "\\Programs\\" ++ provider)) :
    ∃ name ∈ pathComponents provider, (Named dot name ∧ name ≠ L "..") ∧ ∃ evs,
      (RemoveAppProvider os present (some provider) s).2.trace = s.trace ++ evs ∧
        (∀ p ok, .DeleteFileW p ok ∈ evs → InProgram (startMenu ++ L "\\Programs") name p ∨
          IconOf (startMenu ++ L "\\Programs") name evs p) ∧
        ∀ d, .RemoveDirectory d ∈ evs → InProgram (startMenu ++ L "\\Programs") name d ∨
          ∃ icon, IconOf (startMenu ++ L "\\Programs") name evs icon ∧ WSLDVCFileDB.parentDir icon = some d := by
  have hpath : startMenu ++ L "\\Programs\\" ++ provider = (startMenu ++ L "\\Programs") ++ 92 :: provider := by
    simp [L]
  rw [hpath] at hbelow
  obtain ⟨name, hmem, hname, hin⟩ := inProgram_of_strictlyBelow hbelow
  refine ⟨name, hmem, hname, ?_⟩
  rcases RemoveAppProvider_trace os present provider hmenu with ht | ⟨s', hs', ht⟩
  · exact ⟨[], by rw [ht, List.append_nil], ⟨fun _ _ h => (List.not_mem_nil h).elim, fun _ h => (List.not_mem_nil h).elim⟩⟩
  · obtain ⟨scan, clean, hall, hscan, hclean⟩ := removeAll_spec os (startMenu ++ L "\\Programs\\" ++ provider) s'
    rw [hpath] at hscan
    have hmore : ∀ {icon}, IconOf (startMenu ++ L "\\Programs") name scan icon →
        IconOf (startMenu ++ L "\\Programs") name (scan ++ clean) icon := fun ⟨lnk, hl, h⟩ =>
      ⟨lnk, List.mem_append_left clean hl, h⟩
    refine ⟨scan ++ clean, by rw [ht, hall, hs'], fun p ok he => ?_, fun d he => ?_⟩
    · rcases List.mem_append.1 he with he | he
      -- the scan deletes nothing
      · exact (hscan _ he).elim
      · obtain ⟨q, hq, htakes⟩ := hclean _ he
        exact ((takes_inProgram hin hscan hq htakes).1 p ok rfl).imp_right hmore
    · rcases List.mem_append.1 he with he | he
      · exact .inl (hin.within (hscan _ he))
      · obtain ⟨q, hq, htakes⟩ := hclean _ he
        exact ((takes_inProgram hin hscan hq htakes).2 d rfl).imp_right fun ⟨icon, hi, hd⟩ => ⟨icon, hmore hi, hd⟩

/-! ### On a disk -/

/-- The provider `U` with one link, and its icon file in a folder of its own. -/
def diskOfU : TreeDisk (L "C:") where
  dirs := [L "C:", L "C:\\S", L "C:\\S\\Programs", L "C:\\S\\Programs\\U", L "C:\\T", L "C:\\T\\WSLDVCPlugin",
    L "C:\\T\\WSLDVCPlugin\\U"]
  files := [L "C:\\S\\Programs\\U\\x.lnk", L "C:\\T\\WSLDVCPlugin\\U\\x.ico"]
  once := by decide
  properDir := by decide
  properFile := by decide
  short := by decide

def menuOS : OS (TreeDisk (L "C:")) :=
  { treeOS (L "C:") fun _ => some (L "C:\\T\\WSLDVCPlugin\\U\\x.ico") with
    SHGetKnownFolderPath := fun w => (some (L "C:\\S"), w) }

/-- Every folder is there. -/
def anyFolder (_ : WString) (w : TreeDisk (L "C:")) : Bool × TreeDisk (L "C:") := (true, w)

theorem removes_one_provider_on_disk : ∃ name ∈ pathComponents (L "U"), (Named dot name ∧ name ≠ L "..") ∧ ∃ evs,
    (RemoveAppProvider menuOS anyFolder (some (L "U")) ⟨diskOfU, []⟩).2.trace = [] ++ evs ∧
      (∀ p ok, .DeleteFileW p ok ∈ evs → InProgram (L "C:\\S" ++ L "\\Programs") name p ∨
        IconOf (L "C:\\S" ++ L "\\Programs") name evs p) ∧
      ∀ d, .RemoveDirectory d ∈ evs → InProgram (L "C:\\S" ++ L "\\Programs") name d ∨
        ∃ icon, IconOf (L "C:\\S" ++ L "\\Programs") name evs icon ∧ WSLDVCFileDB.parentDir icon = some d := by
  have hmenu : (menuOS.SHGetKnownFolderPath (⟨diskOfU, []⟩ : Sys (TreeDisk (L "C:"))).world).1 = some (L "C:\\S") := rfl
  exact removes_one_provider hmenu (by decide +kernel)

/-- The folder of the icon files goes with them, and that is no folder of the start menu. -/
theorem icon_folder_goes_too :
    let r := RemoveAppProvider menuOS anyFolder (some (L "U")) ⟨diskOfU, []⟩
    (∀ lnk w icon, (menuOS.GetIconLocation lnk w).1 = some icon → Beneath 92 (L "C:\\T\\WSLDVCPlugin\\U") icon) ∧
      .RemoveDirectory (L "C:\\T\\WSLDVCPlugin\\U") ∈ r.2.trace ∧ L "C:\\T\\WSLDVCPlugin\\U" ∉ r.2.world.dirs ∧
        ∀ name, ¬ InProgram (L "C:\\S\\Programs") name (L "C:\\T\\WSLDVCPlugin\\U") := by
  intro r
  refine ⟨?_, by decide +kernel, by decide +kernel, ?_⟩
  · rintro lnk w icon h
    cases h
    exact ⟨L "x.ico", rfl⟩
  · rintro name ⟨cs, h⟩
    have hroot : resolve isSep dot (L "C:\\S\\Programs") = [L "C:", L "S", L "Programs"] := by decide +kernel
    have hicons : resolve isSep dot (L "C:\\T\\WSLDVCPlugin\\U") = [L "C:", L "T", L "WSLDVCPlugin", L "U"] := by
      decide +kernel
    rw [hroot, hicons] at h
    exact absurd (List.cons.inj (List.cons.inj h).2).1 (by decide)

end Wslg
