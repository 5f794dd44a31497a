import Mathlib.Data.Set.Basic
import Wslg.Frame
/-!
# Files on disk

`FileSystem os F` is what the plugin may rely on: paths name files, a call only
takes away the file it is asked to delete, and what is created is there. The
identity of files is up to `fileOf`, so two spellings may name one file. From
this the history tells which files are there for sure.
-/

open Lib Lib.TraceM

namespace Wslg

variable {W F : Type}

/-- Documented behaviour of the system, as far as files of links and icons go. -/
structure FileSystem (os : OS W) (F : Type) where
  fileOf : WString → F
  files : W → Set F
  silent : Silent os fun s s' => files s.world ⊆ files s'.world
  CreateDirectoryW : ∀ p w, files w ⊆ files (os.CreateDirectoryW p w).2
  RemoveDirectory : ∀ p w, files w ⊆ files (os.RemoveDirectory p w).2
  DeleteFileW : ∀ p w, files w \ {fileOf p} ⊆ files (os.DeleteFileW p w).2
  SaveShellLink : ∀ l w, files w ⊆ files (os.SaveShellLink l w).2
  SaveShellLink_ok : ∀ l w, (os.SaveShellLink l w).1 = true → fileOf l.pathLink ∈ files (os.SaveShellLink l w).2
  CreateFileW : ∀ p w, files w ⊆ files (os.CreateFileW p w).2
  CreateFileW_ok : ∀ p w, (os.CreateFileW p w).1 = true → fileOf p ∈ files (os.CreateFileW p w).2
  WriteFile : ∀ p data w, files w ⊆ files (os.WriteFile p data w).2
  ChannelWrite : ∀ bytes w, files w ⊆ files (os.ChannelWrite bytes w).2
  LocalAlloc : ∀ n w, files w ⊆ files (os.LocalAlloc n w).2
  SetValue : ∀ h p w, files w ⊆ files (os.SetValue h p w).2

namespace FileSystem

variable {os : OS W} (fs : FileSystem os F)

/-! ## The history of the files -/

/-- The files that are there for sure after an event. -/
def afterEvent (there : Set F) : Event → Set F
  | .CreateShellLink link true => insert (fs.fileOf link.pathLink) there
  | .CreateIconFile path _ true => insert (fs.fileOf path) there
  | .DeleteFileW path _ => there \ {fs.fileOf path}
  | _ => there

def after (there : Set F) (evs : List Event) : Set F := evs.foldl fs.afterEvent there

@[simp] theorem after_append (there : Set F) (evs evs' : List Event) :
    fs.after there (evs ++ evs') = fs.after (fs.after there evs) evs' := List.foldl_append

theorem afterEvent_mono {there there' : Set F} (h : there ⊆ there') (e : Event) :
    fs.afterEvent there e ⊆ fs.afterEvent there' e := by
  unfold afterEvent
  split
  · exact Set.insert_subset_insert h
  · exact Set.insert_subset_insert h
  · exact Set.sdiff_subset_sdiff_left h
  · exact h

theorem after_mono {there there' : Set F} (h : there ⊆ there') (evs : List Event) :
    fs.after there evs ⊆ fs.after there' evs := by
  induction evs generalizing there there' with
  | nil => exact h
  | cons e evs ih => exact ih (fs.afterEvent_mono h e)

/-- A file stays unless it is deleted. -/
theorem mem_after {there : Set F} {f : F} (h : f ∈ there) {evs : List Event}
    (hdel : ∀ path ok, .DeleteFileW path ok ∈ evs → fs.fileOf path ≠ f) : f ∈ fs.after there evs := by
  induction evs generalizing there with
  | nil => exact h
  | cons e evs ih =>
    refine ih ?_ fun path ok hmem => hdel path ok (List.mem_cons_of_mem e hmem)
    unfold afterEvent
    split
    · exact Set.mem_insert_of_mem _ h
    · exact Set.mem_insert_of_mem _ h
    · exact ⟨h, fun hf => hdel _ _ List.mem_cons_self hf.symm⟩
    · exact h

/-- The world agrees with the events that were added. -/
def Journaled (s s' : Sys W) : Prop :=
  ∃ evs, s'.trace = s.trace ++ evs ∧ fs.after (fs.files s.world) evs ⊆ fs.files s'.world

instance : Std.Refl fs.Journaled := ⟨fun _ => ⟨[], by simp, subset_rfl⟩⟩

instance : IsTrans (Sys W) fs.Journaled := ⟨by
  rintro s s' s'' ⟨evs, ht, h⟩ ⟨evs', ht', h'⟩
  refine ⟨evs ++ evs', by rw [ht', ht, List.append_assoc], ?_⟩
  rw [after_append]
  exact (fs.after_mono h evs').trans h'⟩

theorem journaled_call {α : Type} {f : W → α × W} (h : ∀ w, fs.files w ⊆ fs.files (f w).2) :
    Keeps fs.Journaled (call f : SysM W α) := fun s => ⟨[], by simp, h s.world⟩

/-- An event that stands for no file. -/
theorem journaled_emit {e : Event} (h : ∀ there, fs.afterEvent there e = there) :
    Keeps fs.Journaled (emit e : SysM W PUnit) := fun _ => ⟨[e], rfl, (h _).le⟩

theorem journaled_silent : Silent os fs.Journaled where
  SHGetKnownFolderPath s := ⟨[], by simp, fs.silent.SHGetKnownFolderPath s⟩
  GetTempPathW n s := ⟨[], by simp, fs.silent.GetTempPathW n s⟩
  PathIsDirectoryEmptyW p s := ⟨[], by simp, fs.silent.PathIsDirectoryEmptyW p s⟩
  FindFirstFile p s := ⟨[], by simp, fs.silent.FindFirstFile p s⟩
  GetIconLocation p s := ⟨[], by simp, fs.silent.GetIconLocation p s⟩
  CLSIDFromString g s := ⟨[], by simp, fs.silent.CLSIDFromString g s⟩
  RegOpenKeyExW s := ⟨[], by simp, fs.silent.RegOpenKeyExW s⟩
  RegGetValueW b s := ⟨[], by simp, fs.silent.RegGetValueW b s⟩
  ExpandEnvironmentStringsW p s := ⟨[], by simp, fs.silent.ExpandEnvironmentStringsW p s⟩
  GetLocaleInfoA i s := ⟨[], by simp, fs.silent.GetLocaleInfoA i s⟩
  CreateInstance s := ⟨[], by simp, fs.silent.CreateInstance s⟩
  EnumWindows s := ⟨[], by simp, fs.silent.EnumWindows s⟩
  SHGetPropertyStoreForWindow h s := ⟨[], by simp, fs.silent.SHGetPropertyStoreForWindow h s⟩
  InitPropVariant p s := ⟨[], by simp, fs.silent.InitPropVariant p s⟩

theorem journaled_CreateShellLink (link : ShellLink) : Keeps fs.Journaled (CreateShellLink os link) := fun s => by
  obtain ⟨l, hl, ht⟩ := CreateShellLink_run os link s
  rw [ht]
  refine ⟨_, rfl, ?_⟩
  have hkeep := fs.SaveShellLink l s.world
  have hok := fs.SaveShellLink_ok l s.world
  cases hb : (os.SaveShellLink l s.world).1 with
  | false => exact hkeep
  | true => exact Set.insert_subset (hok hb) hkeep

theorem journaled_CreateIconFile (data : List BYTE) (path : WString) :
    Keeps fs.Journaled (CreateIconFile os data path) := fun s => by
  have hcreate := fs.CreateFileW path s.world
  have hok := fs.CreateFileW_ok path s.world
  cases hb : (os.CreateFileW path s.world).1 with
  | false =>
    rw [CreateIconFile_closed hb]
    exact ⟨_, rfl, hcreate⟩
  | true =>
    have hwrite := fs.WriteFile path data (os.CreateFileW path s.world).2
    rw [CreateIconFile_opened hb]
    refine ⟨_, rfl, ?_⟩
    cases (os.WriteFile path data (os.CreateFileW path s.world).2).1 with
    | false => exact hcreate.trans hwrite
    | true => exact Set.insert_subset (hwrite (hok hb)) (hcreate.trans hwrite)

theorem respected_journaled : Respected os fs.Journaled where
  toSilent := fs.journaled_silent
  CreateDirectoryW p := (fs.journaled_emit fun _ => rfl).bind fun _ => fs.journaled_call (fs.CreateDirectoryW p)
  RemoveDirectory p := (fs.journaled_emit fun _ => rfl).bind fun _ => fs.journaled_call (fs.RemoveDirectory p)
  DeleteFileW p s := ⟨_, rfl, fs.DeleteFileW p s.world⟩
  CreateIconFile := fs.journaled_CreateIconFile
  CreateShellLink := fs.journaled_CreateShellLink
  ChannelWrite bytes := (fs.journaled_emit fun _ => rfl).bind fun _ => fs.journaled_call (fs.ChannelWrite bytes)
  LocalAlloc n := (fs.journaled_call (fs.LocalAlloc n)).bind fun _ => (fs.journaled_emit fun _ => rfl).bind
    fun _ => Keeps.pure _
  SetValue h p := (fs.journaled_emit fun _ => rfl).bind fun _ => fs.journaled_call (fs.SetValue h p)
  mark e he := fs.journaled_emit fun _ => by cases e <;> first | rfl | exact he.elim

/-- At the end of a run the files of its history are on disk. -/
theorem after_reachable {Ok : Reading (Machine W) → Prop} {m : Machine W} (h : Reachable os Ok m) :
    ∃ w, fs.after (fs.files w) m.sys.trace ⊆ fs.files m.sys.world := by
  obtain ⟨w, evs, ht, hevs⟩ := h.keeps fs.respected_journaled fun _ => fs.journaled_emit fun _ => rfl
  rw [List.nil_append] at ht
  exact ⟨w, ht ▸ hevs⟩

end FileSystem

end Wslg
