import Wslg.Lib.Catalog
import Wslg.Folders
/-!
# Watch descriptors

The map of the monitor is keyed by paths, but an event comes with the descriptor of a
watch, which stays with its directory. The map is a catalog of the directories. It is
sound throughout the runs in which no event waits for a directory that goes, no folder
is erased above others and no directory is watched twice. Then every descriptor is of one folder, and an
event is applied to the folder whose path names the directory that the event is from.
-/

open Lib

namespace Wslg.Wslgd

/-! ## What should not happen -/

namespace FontState

/-- The event says that the folder went, or one above it. -/
def dooms (s : FontState) (event : inotify_event) (p : FolderPath) : Bool :=
  match event.note? with
  | some ⟨wd, name, false⟩ => (s.folderOf wd).any (fun a => p.place.Under (a.m_path.sub name).place)
  | _ => false

/-- An event waits that will be applied to the folder. -/
def expects (s : FontState) (f : FontFolder) : Bool :=
  (s.queue.takeWhile (fun event => ¬ s.dooms event f.m_path)).any (fun event => event.name.isSome ∧ f.m_wd = some event.wd)

/-- The path goes through that name in that directory. -/
def passes (s : FontState) (p : FolderPath) (i : Inode) (n : Name) : Bool := s.tree.Passes (some p.root) p.below i n

/-- No event waits that will be applied to a folder there. -/
def silent (s : FontState) (i : Inode) (n : Name) : Bool :=
  s.m_fontMonitorFolders.elems.all (fun f => s.passes f.m_path i n → ¬ s.expects f)

end FontState

/-- A folder is about to be added below that one. -/
def Work.addsBelow (work : Work) (p : FolderPath) : Bool :=
  match work.view with
  | .adding q => q.Under p.place ∧ q ≠ p.place
  | .opening q => q.Under p.place
  | .idle => false

def Frame.addsBelow : Frame → FolderPath → Bool
  | .start path, p => path.place.Under p.place ∧ path.place ≠ p.place
  | .readFolder path _ _, p => path.place.Under p.place

namespace FontState

def addsBelow (s : FontState) (p : FolderPath) : Bool :=
  s.work.addsBelow p ∨ s.frames.any (fun frame => frame.addsBelow p)

/-- If another directory gets the name, nothing is about to happen to the folder. -/
def replaceable (s : FontState) (j : Inode) (m : Name) : Bool :=
  (s.tree.child j m).isSome →
    s.silent j m ∧ s.m_fontMonitorFolders.elems.all (fun f => s.passes f.m_path j m → ¬ s.addsBelow f.m_path)

/-- A directory is removed or renamed when no event waits to be applied to it or to one below it,
a folder is erased when none below it is in the map, and what is watched is not watched already. -/
def orderly (s : FontState) : FontLabel → Bool
  | .monitor a => s.removesAlone ∧ (a = .ok → s.watchesNew)
  | .change (.rmdir i n) => s.silent i n
  | .change (.rename i n j m) => s.silent i n ∧ s.replaceable j m
  | .change _ => true

/-! ## What is claimed -/

/-- No two folders have the same descriptor. -/
def DistinctWatches (s : FontState) : Prop :=
  ∀ f ∈ s.m_fontMonitorFolders.elems, ∀ g ∈ s.m_fontMonitorFolders.elems, f.m_wd = g.m_wd → f = g

/-- The event that is handled next. -/
def event? (s : FontState) : Option inotify_event :=
  match s.work, s.frames with
  | .idle, [] => s.queue.head?
  | _, _ => none

/-- The event that is handled next is applied to the folder. -/
def Applies (s : FontState) (event : inotify_event) (f : FontFolder) : Prop :=
  s.event? = some event ∧ event.name ≠ none ∧ s.folderOf event.wd = some f

end FontState

def OrderlyStep (s : FontState) (l : FontLabel) (t : FontState) : Prop := s.step l = some t ∧ s.orderly l

/-! ## The catalog -/

/-- What an event with a name says. -/
def inotify_event.report? (event : inotify_event) : Option (Report Name) :=
  event.name.map fun _ => ⟨event.wd, match event.note? with
    | some ⟨_, name, false⟩ => some name
    | _ => none⟩

/-- Where a folder is about to be added. -/
def Work.Due (work : Work) (p : Place (Option Root) Name) : Prop :=
  match work.view with
  | .adding q => p = q
  | .opening q => ∃ n, p = q.sub n
  | .idle => False

def Frame.Due : Frame → Place (Option Root) Name → Prop
  | .start path, p => p = path.place
  | .readFolder path _ _, p => ∃ n, p = path.place.sub n

def FontState.catalog (s : FontState) : Catalog (Option Root) Name where
  tree := s.tree
  watches := s.watches
  said := s.queue.filterMap inotify_event.report?
  entry := FontState.entryAt s.m_fontMonitorFolders
  due p := s.work.Due p ∨ ∃ frame ∈ s.frames, frame.Due p

structure Catalogued (s : FontState) : Prop where
  sound : s.catalog.Sound
  wds : ∀ f ∈ s.m_fontMonitorFolders.elems, f.m_wd ≠ none
  building : ∀ f, s.work.building? = some f → f.m_wd = none ∧ s.m_fontMonitorFolders.find f.m_path.str = none
  leaving : ∀ f w, s.work.leaving? = some f → f.m_wd = some w → ∀ x, FontState.entryAt s.m_fontMonitorFolders x ≠ some w

section Events

variable {s : FontState} {f : FontFolder} {p : FolderPath} {event : inotify_event} {rest : List inotify_event} {w : Wd}

/-- What is due below a folder is the place itself or opened there. -/
theorem under_of_sub {x a : Place (Option Root) Name} {n : Name} (h : x.Under p.place) (hne : x ≠ p.place) (hx : x = a.sub n) :
    a.Under p.place := by
  subst hx
  exact h.of_sub.resolve_left fun heq => hne heq.symm

theorem Work.addsBelow_of_due {work : Work} {x : Place (Option Root) Name} (hdue : work.Due x) (h : x.Under p.place)
    (hne : x ≠ p.place) : work.addsBelow p := by
  unfold Work.Due at hdue
  unfold Work.addsBelow
  cases hview : work.view with
  | adding a =>
    rw [hview] at hdue
    obtain rfl : x = a := hdue
    exact decide_eq_true ⟨h, hne⟩
  | opening a =>
    rw [hview] at hdue
    obtain ⟨n, hn⟩ := hdue
    exact decide_eq_true (under_of_sub h hne hn)
  | idle =>
    rw [hview] at hdue
    exact hdue.elim

theorem Frame.addsBelow_of_due {frame : Frame} {x : Place (Option Root) Name} (hdue : frame.Due x) (h : x.Under p.place)
    (hne : x ≠ p.place) : frame.addsBelow p := by
  cases frame with
  | start path =>
    obtain rfl : x = path.place := hdue
    exact decide_eq_true ⟨h, hne⟩
  | readFolder path dir unread =>
    obtain ⟨n, hn⟩ := hdue
    exact decide_eq_true (under_of_sub h hne hn)

theorem not_due_below (h : ¬ s.addsBelow p) {x : Place (Option Root) Name} (hx : x.Under p.place) (hne : x ≠ p.place) :
    ¬ s.catalog.due x := by
  rintro (hdue | ⟨frame, hmem, hdue⟩)
  · exact h (decide_eq_true (.inl (Work.addsBelow_of_due hdue hx hne)))
  · exact h (decide_eq_true (.inr (List.any_eq_true.2 ⟨frame, hmem, Frame.addsBelow_of_due hdue hx hne⟩)))

theorem report?_eq_some {x : Report Name} (h : event.report? = some x) :
    event.name.isSome ∧ x.wd = event.wd ∧ ∀ n, x.went = some n ↔ event.note? = some ⟨event.wd, n, false⟩ := by
  unfold inotify_event.report? at h
  obtain ⟨name, hname, rfl⟩ := Option.map_eq_some_iff.1 h
  refine ⟨by rw [hname]; rfl, rfl, fun n => ?_⟩
  cases hnote : event.note? with
  | none => simp
  | some note =>
    obtain ⟨wd, m, arrives⟩ := note
    obtain rfl : wd = event.wd := (note?_eq_some hnote).1
    cases arrives <;> simp

theorem report?_of_none (h : event.report? = none) : event.name = none := Option.map_eq_none_iff.1 h

theorem dooms_of_dooms {x : Report Name} (hreport : event.report? = some x) (h : s.dooms event p) :
    Catalog.Dooms s.catalog.entry x p.place := by
  obtain ⟨-, hwd, hwent⟩ := report?_eq_some hreport
  unfold FontState.dooms at h
  split at h
  · rename_i wd name hnote
    obtain rfl : wd = event.wd := (note?_eq_some hnote).1
    obtain ⟨a, ha, hunder⟩ := (Option.any_eq_true ..).1 h
    exact ⟨a.m_path.place, name, (hwent name).2 hnote, hwd ▸ (folderOf_eq_some ha).2, of_decide_eq_true hunder⟩
  · cases h

/-- Nothing is heard of a folder for which no event waits. -/
theorem mute_of_not_expects (hw : f.m_wd = some w) (h : ¬ s.expects f) :
    Catalog.Mute s.catalog.entry f.m_path.place w s.catalog.said := by
  unfold FontState.expects at h
  change Catalog.Mute _ _ _ (s.queue.filterMap inotify_event.report?)
  generalize s.queue = queue at h ⊢
  induction queue with
  | nil => trivial
  | cons event queue ih =>
    by_cases hdooms : s.dooms event f.m_path
    · cases hreport : event.report? with
      | none =>
        -- an event without a name says nothing
        unfold FontState.dooms inotify_event.note? at hdooms
        rw [report?_of_none hreport] at hdooms
        cases hdooms
      | some x =>
        rw [List.filterMap_cons_some hreport]
        exact .inl (dooms_of_dooms hreport hdooms)
    · rw [List.takeWhile_cons, if_pos (decide_eq_true hdooms), List.any_cons, Bool.or_eq_true, not_or] at h
      cases hreport : event.report? with
      | none =>
        rw [List.filterMap_cons_none hreport]
        exact ih h.2
      | some x =>
        rw [List.filterMap_cons_some hreport]
        obtain ⟨hname, hwd, -⟩ := report?_eq_some hreport
        refine .inr ⟨fun heq => h.1 (decide_eq_true ⟨hname, ?_⟩), ih h.2⟩
        rw [hw, ← heq, hwd]

/-- So it is with the folders that are reached through an entry. -/
theorem mute_of_silent {i : Inode} {n : Name} (h : s.silent i n) {x : Place (Option Root) Name} (hx : s.catalog.entry x = some w)
    (hpasses : s.tree.Passes x.1 x.2 i n) : Catalog.Mute s.catalog.entry x w s.catalog.said := by
  obtain ⟨f, hf, rfl, hw⟩ := entryAt_eq_some.1 hx
  have hall := of_decide_eq_true (List.all_eq_true.1 h f hf)
  exact mute_of_not_expects hw (hall (decide_eq_true hpasses))

end Events

/-! ## Changes of the directories -/

section Changes

variable {s t : FontState} {i j k : Inode} {n m : Name} {mask : UInt32} {w : Wd}

theorem report?_arrives (h : inotify_event.note? ⟨w, mask, some n⟩ = some ⟨w, n, true⟩) :
    inotify_event.report? ⟨w, mask, some n⟩ = some ⟨w, none⟩ := by
  unfold inotify_event.report?
  rw [h]
  rfl

theorem report?_departs (h : inotify_event.note? ⟨w, mask, some n⟩ = some ⟨w, n, false⟩) :
    inotify_event.report? ⟨w, mask, some n⟩ = some ⟨w, some n⟩ := by
  unfold inotify_event.report?
  rw [h]
  rfl

/-- An event of a `fonts.dir`. -/
theorem report?_file (h : ¬ mask &&& IN_ISDIR ≠ 0) (w : Wd) :
    inotify_event.report? ⟨w, mask, some n⟩ = some ⟨w, none⟩ := by
  have hnote : inotify_event.note? ⟨w, mask, some n⟩ = none := if_neg h
  unfold inotify_event.report?
  rw [hnote]
  rfl

theorem catalog_notify {went : Option Name} (hreport : ∀ w, inotify_event.report? ⟨w, mask, some n⟩ = some ⟨w, went⟩) :
    (s.notify i mask n).catalog = { s.catalog with said := s.catalog.said ++ s.catalog.reports i went } := by
  unfold FontState.notify Catalog.reports
  rw [show s.catalog.watches = s.watches from rfl]
  cases s.watches.wdOf i with
  | none =>
    dsimp only
    rw [List.append_nil]
  | some w => simp only [FontState.catalog, List.filterMap_append, List.filterMap_cons_some (hreport w), List.filterMap_nil]

theorem catalog_forget : (s.forget i n).catalog = s.catalog := by
  have hdue : ∀ (frame : Frame) p, (frame.forget i n).Due p = frame.Due p := by
    rintro (_ | _) p <;> rfl
  unfold FontState.catalog FontState.forget
  simp only [List.mem_map, exists_exists_and_eq_and, hdue]

theorem catalog_discard : (s.discard k).catalog = { s.catalog with watches := s.watches.drop k } := by
  unfold FontState.discard
  split
  · rw [Watches.drop_of_none ‹_›]
    rfl
  · simp only [FontState.catalog, List.filterMap_append]
    exact congrArg (fun said => ({ s.catalog with watches := s.watches.drop k, said := said } : Catalog (Option Root) Name))
      (List.append_nil _)

theorem catalog_moved (h : s.tree.child i n = some k ∧ j < s.tree.next) :
    (s.moved i n j m k h).catalog = { s.catalog with
      tree := s.tree.move i n j m k h
      said := (s.catalog.said ++ s.catalog.reports i (some n)) ++ s.catalog.reports j none } := by
  unfold FontState.moved
  rw [catalog_notify fun w => report?_arrives (note?_arrives (by decide) (by decide) w),
    catalog_notify fun w => report?_departs (note?_departs (by decide) (by decide) (by decide) w), catalog_forget, catalog_forget]
  rfl

theorem Catalogued.of_change (hs : Catalogued s) (hsound : t.catalog.Sound)
    (hfolders : t.m_fontMonitorFolders = s.m_fontMonitorFolders) (hwork : t.work = s.work) : Catalogued t where
  sound := hsound
  wds := hfolders ▸ hs.wds
  building := hwork ▸ hfolders ▸ hs.building
  leaving := hwork ▸ hfolders ▸ hs.leaving

theorem catalogued_mkdir (hs : Catalogued s) (h : s.change (.mkdir i n) = some t) : Catalogued t := by
  simp only [FontState.change] at h
  split at h
  · cases h
    rename_i hcan
    refine hs.of_change ?_ (by rw [notify_folders]) (by rw [notify_work])
    rw [catalog_notify fun w => report?_arrives (note?_arrives (by decide) (by decide) w)]
    exact hs.sound.grow (fun r ns k hk => DirTree.resolve_mkdir (h := hcan.1) hk) fun x hx => ⟨i, (Catalog.mem_reports.1 hx).1⟩
  · cases h

theorem catalogued_rmdir (hs : Catalogued s) (hsilent : s.silent i n) (h : s.change (.rmdir i n) = some t) : Catalogued t := by
  simp only [FontState.change] at h
  cases hchild : s.tree.child i n with
  | none =>
    rw [hchild] at h
    cases h
  | some k =>
    simp only [hchild] at h
    split at h
    · cases h
      have hlink := DirTree.child_eq_some.1 hchild
      refine hs.of_change ?_ (by simp [FontState.forget]) (by simp [FontState.forget])
      rw [catalog_discard, catalog_notify fun w => report?_departs (note?_departs (by decide) (by decide) (by decide) w),
        catalog_forget, notify_watches]
      have hcut := hs.sound.cut i n (s.catalog.reports i (some n))
        (fun v hv => Catalog.mem_reports.2 ⟨hv, rfl⟩) (fun x hx => (Catalog.mem_reports.1 hx).1)
        fun x w hx hpasses => mute_of_silent hsilent hx hpasses
      refine hcut.gone (fun r hr => s.tree.root_free r k hr _ hlink rfl) fun l hl heq => ?_
      -- what was linked there has no other link
      obtain ⟨hl, hne⟩ := DirTree.mem_unlink.1 hl
      obtain rfl := s.tree.parent l hl _ hlink heq
      exact hne ⟨rfl, rfl⟩
    · cases h

theorem quiet_of_replaceable (hreplaceable : s.replaceable j m) (hchild : (s.tree.child j m).isSome)
    {x : Place (Option Root) Name} (hx : s.catalog.entry x = some w) (hpasses : s.tree.Passes x.1 x.2 j m) :
    Catalog.Mute s.catalog.entry x w s.catalog.said ∧ ∀ q, q.Under x → q ≠ x → ¬ s.catalog.due q := by
  obtain ⟨hsilent, hidle⟩ := of_decide_eq_true hreplaceable hchild
  refine ⟨mute_of_silent hsilent hx hpasses, ?_⟩
  obtain ⟨f, hf, rfl, -⟩ := entryAt_eq_some.1 hx
  have hnone := of_decide_eq_true (List.all_eq_true.1 hidle f hf) (decide_eq_true hpasses)
  exact fun q hq hne => not_due_below hnone hq hne

theorem catalogued_rename (hs : Catalogued s) (hsilent : s.silent i n) (hreplaceable : s.replaceable j m)
    (h : s.change (.rename i n j m) = some t) : Catalogued t := by
  have hmute : ∀ x w, s.catalog.entry x = some w → s.tree.Passes x.1 x.2 i n →
      Catalog.Mute s.catalog.entry x w s.catalog.said := fun x w hx hpasses => mute_of_silent hsilent hx hpasses
  simp only [FontState.change] at h
  split at h
  · cases h
  · rename_i k hchild
    split at h
    · rename_i hcan
      have hfolders : (s.moved i n j m k ⟨hchild, hcan.1⟩).m_fontMonitorFolders = s.m_fontMonitorFolders := by
        simp [FontState.moved, FontState.forget]
      have hwork : (s.moved i n j m k ⟨hchild, hcan.1⟩).work = s.work := by simp [FontState.moved, FontState.forget]
      cases hreplaced : s.tree.child j m with
      | none =>
        rw [hreplaced] at h
        cases h
        refine hs.of_change ?_ hfolders hwork
        rw [catalog_moved]
        exact hs.sound.move ⟨hchild, hcan.1⟩ hreplaced hmute
      | some k' =>
        rw [hreplaced] at h
        cases h
        have hlink' := DirTree.child_eq_some.1 hreplaced
        have hquiet := fun x w hx => quiet_of_replaceable (x := x) (w := w) hreplaceable (hreplaced ▸ rfl) hx
        refine hs.of_change ?_ (by rw [discard_folders, hfolders]) (by rw [discard_work, hwork])
        have hwatches : (s.moved i n j m k ⟨hchild, hcan.1⟩).watches = s.watches := by
          simp [FontState.moved, FontState.forget]
        rw [catalog_discard, catalog_moved, hwatches]
        exact hs.sound.moveOver ⟨hchild, hcan.1⟩ hlink' (isEmpty_links (hcan.2.2.2.2.2 k' hreplaced)) hmute hquiet
    · cases h

theorem catalogued_setFontsDir {possible : Prop} [Decidable possible] {file : Option Bool} (hs : Catalogued s)
    (hmask : ¬ mask &&& IN_ISDIR ≠ 0) (h : (if possible then some (s.setFontsDir i file mask) else none) = some t) :
    Catalogued t := by
  split at h
  · cases h
    unfold FontState.setFontsDir
    refine hs.of_change ?_ (by rw [notify_folders]) (by rw [notify_work])
    rw [catalog_notify (report?_file hmask)]
    exact hs.sound.grow (fun _ _ _ hk => hk) fun x hx => ⟨i, (Catalog.mem_reports.1 hx).1⟩
  · cases h

theorem catalogued_change {c : Change} (hs : Catalogued s) (horderly : s.orderly (.change c)) (h : s.change c = some t) :
    Catalogued t := by
  cases c with
  | mkdir i n => exact catalogued_mkdir hs h
  | rmdir i n => exact catalogued_rmdir hs horderly h
  | rename i n j m =>
    obtain ⟨hsilent, hreplaceable⟩ := of_decide_eq_true horderly
    exact catalogued_rename hs hsilent hreplaceable h
  | create i readable => exact catalogued_setFontsDir hs (by decide) h
  | rewrite i => exact catalogued_setFontsDir hs (by decide) h
  | remove i => exact catalogued_setFontsDir hs (by decide) h
  | moveIn i readable => exact catalogued_setFontsDir hs (by decide) h
  | moveOut i => exact catalogued_setFontsDir hs (by decide) h

end Changes

/-! ## The monitor's steps -/

section Proceed

variable {s t : FontState} {f : FontFolder} {path : FolderPath} {a : Answer} {work : Work} {fontPath : List FolderPath}
  {frames : List Frame}

/-- The monitor goes on, and adds nothing that it was not about to add. -/
theorem Catalogued.works (hs : Catalogued s) (hdue : ∀ p, work.Due p → s.work.Due p)
    (hbuilding : ∀ f, work.building? = some f → f.m_wd = none ∧ s.m_fontMonitorFolders.find f.m_path.str = none)
    (hleaving : ∀ f w, work.leaving? = some f → f.m_wd = some w → ∀ x, FontState.entryAt s.m_fontMonitorFolders x ≠ some w) :
    Catalogued { s with fontPath := fontPath, work := work } where
  sound := hs.sound.turn fun p hp => hp.imp_left (hdue p)
  wds := hs.wds
  building := hbuilding
  leaving := hleaving

/-- No folder is constructed or destroyed. -/
theorem Catalogued.goes (hs : Catalogued s) (hbuilding : work.building? = none) (hleaving : work.leaving? = none)
    (hdue : ∀ p, (work.Due p ∨ ∃ frame ∈ frames, frame.Due p) → s.catalog.due p) :
    Catalogued { s with fontPath := fontPath, work := work, frames := frames } where
  sound := hs.sound.turn hdue
  wds := hs.wds
  building f hf := by rw [hbuilding] at hf; cases hf
  leaving f w hf := by rw [hleaving] at hf; cases hf

/-- Neither is one added. -/
theorem Catalogued.rests (hs : Catalogued s) (hview : work.view = .idle) (hbuilding : work.building? = none)
    (hleaving : work.leaving? = none) : Catalogued { s with fontPath := fontPath, work := work } := by
  refine hs.goes hbuilding hleaving fun p hp => hp.imp_left fun hp => ?_
  unfold Work.Due at hp
  rw [hview] at hp
  exact hp.elim

theorem catalogued_AddMonitorFolder (hs : Catalogued s) (hwork : s.work = .AddMonitorFolder path)
    (h : s.proceed a = some t) : Catalogued t := by
  unfold FontState.proceed at h
  rw [hwork] at h
  cases h
  cases hfind : s.m_fontMonitorFolders.find path.str with
  | some f =>
    simp only [Option.isSome_some, if_true]
    exact hs.rests rfl rfl rfl
  | none =>
    simp only [Option.isSome_none, Bool.false_eq_true, if_false]
    refine hs.works (fun p hp => by rwa [hwork]) (fun f hf => ?_) fun f w hf => by cases hf
    cases hf
    exact ⟨rfl, hfind⟩

theorem catalogued_construct (hs : Catalogued s) (hwork : s.work = .access f ∨ s.work = .addPath f)
    (h : s.proceed a = some t) : Catalogued t := by
  have hbuild : s.work.building? = some f := by rcases hwork with hwork | hwork <;> rw [hwork] <;> rfl
  have hview : s.work.view = .adding f.m_path.place := by rcases hwork with hwork | hwork <;> rw [hwork] <;> rfl
  obtain ⟨hnone, hfree⟩ := hs.building f hbuild
  obtain ⟨g, fontPath, work, rfl, hpath, hwd, hbuilding, hleaving, hview'⟩ := proceed_construct hwork h
  refine hs.works (fun p hp => ?_) (fun g' hg' => ?_) fun f' w hf' => ?_
  · unfold Work.Due at hp ⊢
    rwa [hview', hpath, ← hview] at hp
  · rw [hbuilding] at hg'
    cases hg'
    exact ⟨hwd.trans hnone, by rw [hpath, hfree]⟩
  · rw [hleaving] at hf'
    cases hf'

theorem catalogued_addWatch (hs : Catalogued s) (hwork : s.work = .addWatch f) (hnew : a = .ok → s.watchesNew)
    (h : s.proceed a = some t) : Catalogued t := by
  unfold FontState.proceed at h
  rw [hwork] at h
  cases h
  obtain ⟨hnone, hfree⟩ := hs.building f (by rw [hwork]; rfl)
  unfold FontState.addWatch
  split
  · -- no watch: the folder is destroyed, and was never in the map
    refine hs.works (fun p hp => hp.elim) (fun g hg => by cases hg) fun g w hg hw => ?_
    cases hg
    rw [hnone] at hw
    cases hw
  · rename_i i hres
    split at hres
    · have hfresh : s.watches.wdOf i = none := by simpa [FontState.watchesNew, hwork, hres] using hnew ‹_›
      split
      · rename_i wd heq
        rw [hfresh] at heq
        cases heq
      · have hentry := entryAt_insert (f := { f with m_wd := some s.watches.next }) hfree
        refine ⟨?_, ?_, (fun g hg => by cases hg), fun g w hg => by cases hg⟩
        · simp only [FontState.catalog, hentry]
          refine hs.sound.watch (.inl ?_) (untracked_entry hfree) hres fun p hp => ?_
          · rw [hwork]
            rfl
          · rcases hp with hp | hp
            · exact .inr hp
            · exact .inl (.inr hp)
        · intro g hg
          rcases KeyedSet.mem_insert.1 hg with hg | ⟨rfl, -⟩
          · exact hs.wds g hg
          · exact Option.some_ne_none _
    · cases hres

theorem catalogued_openFolder (hs : Catalogued s) (hwork : s.work = .openFolder path) (h : s.proceed a = some t) :
    Catalogued t := by
  unfold FontState.proceed at h
  rw [hwork] at h
  cases h
  unfold FontState.openFolder
  split
  · split
    · refine hs.goes rfl rfl fun p hp => hp.imp_left fun hp => ?_
      rw [hwork]
      exact ⟨X11, hp⟩
    · exact hs.rests rfl rfl rfl
  · cases s.resolve path with
    | none => exact hs.rests rfl rfl rfl
    | some dir =>
      refine hs.goes rfl rfl fun p hp => ?_
      rcases hp with hp | ⟨frame, hmem, hp⟩
      · exact hp.elim
      · rcases List.mem_cons.1 hmem with rfl | hmem
        -- the directory that was opened is read
        · exact .inl (by rw [hwork]; exact hp)
        · exact .inr ⟨frame, hmem, hp⟩

theorem catalogued_removePath (hs : Catalogued s) (hwork : s.work = .removePath f) (h : s.proceed a = some t) :
    Catalogued t := by
  obtain ⟨g, fontPath, work, rfl, hwd, hbuilding, hleaving, hview⟩ := proceed_removePath hwork h
  refine hs.works (fun p hp => ?_) (fun g' hg' => ?_) fun g' w hg' hw => ?_
  · unfold Work.Due at hp
    rw [hview] at hp
    exact hp.elim
  · rw [hbuilding] at hg'
    cases hg'
  · rw [hleaving] at hg'
    cases hg'
    exact hs.leaving f w (by rw [hwork]; rfl) (hwd ▸ hw)

theorem catalogued_removeWatch (hs : Catalogued s) (hwork : s.work = .removeWatch f) (h : s.proceed a = some t) :
    Catalogued t := by
  unfold FontState.proceed at h
  rw [hwork] at h
  cases h
  unfold FontState.removeWatch
  cases hwd : f.m_wd with
  | none => exact hs.rests rfl rfl rfl
  | some wd =>
    dsimp only
    split
    · have hentry := hs.leaving f wd (by rw [hwork]; rfl) hwd
      have hidle : ∀ p, (Work.idle.Due p ∨ ∃ frame ∈ s.frames, frame.Due p) → s.catalog.due p :=
        fun p hp => hp.imp_left fun hp => hp.elim
      refine ⟨?_, hs.wds, (fun f hf => by cases hf), fun f w hf => by cases hf⟩
      simp only [FontState.catalog, List.filterMap_append]
      have hsound := (hs.sound.unwatch hentry).turn hidle
      rw [← List.append_nil s.catalog.said] at hsound
      exact hsound
    · exact hs.rests rfl rfl rfl

theorem catalogued_checkFontsDir (hs : Catalogued s) (hwork : s.work = .checkFontsDir path) (h : s.proceed a = some t) :
    Catalogued t := by
  unfold FontState.proceed at h
  rw [hwork] at h
  cases h
  split
  · exact hs.rests rfl rfl rfl
  · exact hs.rests rfl rfl rfl

theorem catalogued_modify {isAdd : Bool} (hs : Catalogued s) (hwork : s.work = .modify path isAdd)
    (h : s.proceed a = some t) : Catalogued t := by
  rcases proceed_modify hwork h with rfl | ⟨f, g, fontPath, work, hfind, hpath, hwd, hbuilding, hleaving, hview, rfl⟩
  · exact hs.rests rfl rfl rfl
  · have hrests : Catalogued { s with work := work } := hs.rests hview hbuilding hleaving
    refine ⟨?_, wds_replace hs.wds hfind hwd, fun f' hf' => ?_, fun f' w hf' => ?_⟩
    · simp only [FontState.catalog, entryAt_replace hfind hpath hwd]
      exact hrests.sound
    · rw [hbuilding] at hf'
      cases hf'
    · rw [hleaving] at hf'
      cases hf'

theorem catalogued_rehash {next : Work} (hs : Catalogued s) (hwork : s.work = .rehash next) (h : s.proceed a = some t) :
    Catalogued t := by
  unfold FontState.proceed at h
  rw [hwork] at h
  cases h
  refine hs.works (fun p hp => ?_) (fun f hf => hs.building f ?_) fun f w hf => hs.leaving f w ?_
  · rwa [hwork]
  · rwa [hwork]
  · rwa [hwork]

/-! ### Events -/

section Handle

variable {event : inotify_event} {rest : List inotify_event} {name : Name} {x : Report Name}

theorem said_queue (hqueue : s.queue = event :: rest) (hreport : event.report? = some x) :
    s.catalog.said = x :: rest.filterMap inotify_event.report? := by
  unfold FontState.catalog
  rw [hqueue]
  exact List.filterMap_cons_some hreport

/-- An event of which nobody goes. -/
theorem Catalogued.hears (hs : Catalogued s) (hqueue : s.queue = event :: rest) (hreport : event.report? = some x)
    (hnone : ∀ p, ¬ Catalog.Dooms s.catalog.entry x p) (hdue : ∀ p, work.Due p → ∃ q n, s.catalog.entry q = some x.wd ∧ p = q.sub n)
    (hbuilding : work.building? = none) (hleaving : work.leaving? = none) :
    Catalogued { s with queue := rest, work := work } where
  sound := by
    refine hs.sound.hear (said_queue hqueue hreport) (fun p _ _ => hnone p) fun p hp => ?_
    rcases hp with hp | hp
    · exact .inr (hdue p hp)
    · exact .inl (.inr hp)
  wds := hs.wds
  building f hf := by rw [hbuilding] at hf; cases hf
  leaving f w hf := by rw [hleaving] at hf; cases hf

/-- An event of which nobody goes and for which nothing is done. -/
theorem Catalogued.skips (hs : Catalogued s) (hwork : s.work = .idle) (hqueue : s.queue = event :: rest)
    (hreport : event.report? = some x) (hnone : ∀ p, ¬ Catalog.Dooms s.catalog.entry x p) :
    Catalogued { s with queue := rest } := by
  apply hs.hears hqueue hreport hnone
  · rw [hwork]
    exact fun p hp => hp.elim
  · rw [hwork]
    rfl
  · rw [hwork]
    rfl

theorem went_eq_none (hreport : event.report? = some x) (h : ∀ n, event.note? ≠ some ⟨event.wd, n, false⟩) :
    x.went = none := by
  refine Option.eq_none_iff_forall_ne_some.2 fun n hn => h n ?_
  exact ((report?_eq_some hreport).2.2 n).1 hn

theorem not_dooms_of_arrives (hwent : x.went = none) {entry : Place (Option Root) Name → Option Wd}
    (p : Place (Option Root) Name) : ¬ Catalog.Dooms entry x p := by
  rintro ⟨a, n, hn, -⟩
  rw [hwent] at hn
  cases hn

/-- An event that says nothing of a directory. -/
theorem catalogued_file (hs : Catalogued s) (hwork : s.work = .idle) (hqueue : s.queue = event :: rest)
    (hreport : event.report? = some x) (hnote : event.note? = none) :
    Catalogued (({ s with queue := rest } : FontState).handleEvent event) := by
  have hnone : ∀ p, ¬ Catalog.Dooms s.catalog.entry x p :=
    not_dooms_of_arrives (went_eq_none hreport fun n => by rw [hnote]; exact nofun)
  rw [handleEvent_of_none hnote]
  split
  · exact hs.hears hqueue hreport hnone (fun p hp => hp.elim) rfl rfl
  · exact hs.hears hqueue hreport hnone (fun p hp => hp.elim) rfl rfl
  · exact hs.skips hwork hqueue hreport hnone

/-- A directory arrived. -/
theorem catalogued_arrives (hs : Catalogued s) (hwork : s.work = .idle) (hqueue : s.queue = event :: rest)
    (hreport : event.report? = some x) (hnote : event.note? = some ⟨event.wd, name, true⟩) :
    Catalogued (({ s with queue := rest } : FontState).handleEvent event) := by
  have hnone : ∀ p, ¬ Catalog.Dooms s.catalog.entry x p :=
    not_dooms_of_arrives (went_eq_none hreport fun n => by rw [hnote]; exact nofun)
  rw [handleEvent_arrives hnote]
  cases hfolder : ({ s with queue := rest } : FontState).folderOf event.wd with
  | none => exact hs.skips hwork hqueue hreport hnone
  | some f =>
    dsimp only
    split
    · exact hs.skips hwork hqueue hreport hnone
    · refine hs.hears hqueue hreport hnone (fun p hp => ?_) rfl rfl
      exact ⟨f.m_path.place, name, (report?_eq_some hreport).2.1 ▸ (folderOf_eq_some hfolder).2, hp⟩

/-- A directory went. -/
theorem catalogued_departs (hs : Catalogued s) (hwork : s.work = .idle) (hframes : s.frames = [])
    (hqueue : s.queue = event :: rest) (hreport : event.report? = some x)
    (hnote : event.note? = some ⟨event.wd, name, false⟩) (halone : s.removesAlone) :
    Catalogued (({ s with queue := rest } : FontState).handleEvent event) := by
  obtain ⟨-, hwd, hevent⟩ := report?_eq_some hreport
  rw [handleEvent_departs hnote]
  cases hfolder : ({ s with queue := rest } : FontState).folderOf event.wd with
  | none =>
    refine hs.skips hwork hqueue hreport ?_
    rintro p ⟨a, n, -, ha, -⟩
    exact folderOf_eq_none hfolder a (hwd ▸ ha)
  | some f =>
    have hentry : s.catalog.entry f.m_path.place = some event.wd := (folderOf_eq_some hfolder).2
    simp only [FontState.removesAlone, hwork, hframes, hqueue, hnote] at halone
    rw [show s.folderOf event.wd = some f from hfolder] at halone
    have hidle : ∀ p, ¬ s.catalog.due p := by
      rintro p (hp | ⟨frame, hmem, -⟩)
      · rw [hwork] at hp
        exact hp
      · rw [hframes] at hmem
        cases hmem
    have hsound := hs.sound.depart (said_queue hqueue hreport) ((hevent name).2 hnote) (hwd ▸ hentry) hidle
      fun y => untracked_below halone
    dsimp only
    unfold FontState.RemoveMonitorFolder
    cases hfind : s.m_fontMonitorFolders.find (f.m_path.sub name).str with
    | none =>
      -- nothing is tracked there
      unfold Catalog.depart at hsound
      rw [Function.update_eq_self_iff.2 (untracked_entry hfind).symm] at hsound
      exact ⟨hsound, hs.wds, hs.building, hs.leaving⟩
    | some g =>
      refine ⟨?_, fun g' hg' => hs.wds g' (KeyedSet.mem_erase.1 hg').1, (fun g' hg' => by cases hg'), ?_⟩
      · simp only [FontState.catalog, entryAt_erase]
        exact hsound.turn fun p hp => hp.imp_left fun hp => hp.elim
      · intro g' v hg' hv y hy
        cases hg'
        rw [entryAt_erase, Function.update_apply] at hy
        split at hy
        · cases hy
        · rename_i hne
          -- the watch is of the folder that was erased, so no entry has it
          have hown : s.catalog.entry g.m_path.place = some v :=
            entryAt_eq_some.2 ⟨g, (KeyedSet.find_eq_some.1 hfind).1, rfl, hv⟩
          exact hne ((hs.sound.wd_inj y g.m_path.place v hy hown).trans (congrArg FolderPath.place (find_path hfind)))

theorem catalogued_event (hs : Catalogued s) (hwork : s.work = .idle) (hframes : s.frames = [])
    (hqueue : s.queue = event :: rest) (halone : s.removesAlone) :
    Catalogued (({ s with queue := rest } : FontState).handleEvent event) := by
  cases hreport : event.report? with
  | none =>
    -- without a name it is for nobody
    have hsound := hs.sound
    simp only [FontState.catalog, hqueue, List.filterMap_cons_none hreport] at hsound
    unfold FontState.handleEvent
    rw [report?_of_none hreport]
    exact ⟨hsound, hs.wds, hs.building, hs.leaving⟩
  | some x =>
    cases hnote : event.note? with
    | none => exact catalogued_file hs hwork hqueue hreport hnote
    | some note =>
      obtain ⟨w, name, arrives⟩ := note
      obtain rfl : w = event.wd := (note?_eq_some hnote).1
      cases arrives with
      | true => exact catalogued_arrives hs hwork hqueue hreport hnote
      | false => exact catalogued_departs hs hwork hframes hqueue hreport hnote halone

end Handle

/-- What the frames make due is due. -/
theorem due_of_frames {p : Place (Option Root) Name} (hframes : ∀ frame ∈ frames, frame ∈ s.frames)
    (h : ∃ frame ∈ frames, frame.Due p) : s.catalog.due p := by
  obtain ⟨frame, hmem, hp⟩ := h
  exact .inr ⟨frame, hframes frame hmem, hp⟩

theorem catalogued_idle (hs : Catalogued s) (hwork : s.work = .idle) (halone : s.removesAlone) (h : s.proceed a = some t) :
    Catalogued t := by
  have hframe : ∀ {frame frames}, s.frames = frame :: frames → frame ∈ s.frames := fun h => h ▸ List.mem_cons_self
  have hrest : ∀ {frame frames}, s.frames = frame :: frames → ∀ frame ∈ frames, frame ∈ s.frames :=
    fun h frame hmem => h ▸ List.mem_cons_of_mem _ hmem
  rcases proceed_idle hwork h with ⟨path, frames, hframes, rfl⟩ | ⟨path, dir, unread, name, frames, hframes, rfl⟩ |
    ⟨path, dir, frames, hframes, rfl⟩ | ⟨event, queue, hframes, hqueue, rfl⟩
  -- a folder starts
  · refine hs.goes rfl rfl fun p hp => ?_
    rcases hp with hp | hp
    · exact .inr ⟨.start path, hframe hframes, hp⟩
    · exact due_of_frames (hrest hframes) hp
  -- the next entry of a directory
  · refine hs.goes rfl rfl fun p hp => ?_
    rcases hp with hp | ⟨frame, hmem, hp⟩
    · exact .inr ⟨.readFolder path dir unread, hframe hframes, name, hp⟩
    · rcases List.mem_cons.1 hmem with rfl | hmem
      -- the directory is still read
      · exact .inr ⟨.readFolder path dir unread, hframe hframes, hp⟩
      · exact due_of_frames (hrest hframes) ⟨frame, hmem, hp⟩
  -- a directory is read to its end
  · refine hs.goes rfl rfl fun p hp => ?_
    rcases hp with hp | hp
    · exact hp.elim
    · exact due_of_frames (hrest hframes) hp
  · exact catalogued_event hs hwork hframes hqueue halone

/-- Whatever the monitor does next. -/
theorem catalogued_proceed (hs : Catalogued s) (horderly : s.orderly (.monitor a)) (h : s.proceed a = some t) :
    Catalogued t := by
  obtain ⟨halone, hnew⟩ : s.removesAlone ∧ (a = .ok → s.watchesNew) := of_decide_eq_true horderly
  cases hwork : s.work with
  | idle => exact catalogued_idle hs hwork halone h
  | AddMonitorFolder path => exact catalogued_AddMonitorFolder hs hwork h
  | access f => exact catalogued_construct hs (.inl hwork) h
  | addPath f => exact catalogued_construct hs (.inr hwork) h
  | addWatch f => exact catalogued_addWatch hs hwork hnew h
  | openFolder path => exact catalogued_openFolder hs hwork h
  | removePath f => exact catalogued_removePath hs hwork h
  | removeWatch f => exact catalogued_removeWatch hs hwork h
  | checkFontsDir path => exact catalogued_checkFontsDir hs hwork h
  | modify path isAdd => exact catalogued_modify hs hwork h
  | rehash next => exact catalogued_rehash hs hwork h

end Proceed

/-! ## The watches -/

section Watched

variable {s t : FontState} {a : Answer} {c : Change}

theorem handleEvent_watches (s : FontState) (event : inotify_event) : (s.handleEvent event).watches = s.watches := by
  unfold FontState.handleEvent FontState.HandleFolderEvent FontState.HandleFontsDirEvent FontState.RemoveMonitorFolder
  (repeat' split) <;> rfl

theorem openFolder_watches (s : FontState) (path : FolderPath) : (s.openFolder path).watches = s.watches := by
  unfold FontState.openFolder
  (repeat' split) <;> rfl

theorem modify_watches (s : FontState) (path : FolderPath) (isAdd success : Bool) :
    (s.modify path isAdd success).watches = s.watches := by
  unfold FontState.modify
  split <;> rfl

theorem later_addWatch (s : FontState) (f : FontFolder) (a : Answer) : s.watches.Later (s.addWatch f a).watches := by
  unfold FontState.addWatch
  split
  · exact .refl _
  · split
    · exact .refl _
    · exact .add _ ‹_›

theorem later_removeWatch (s : FontState) (f : FontFolder) : s.watches.Later (s.removeWatch f).watches := by
  unfold FontState.removeWatch
  split
  · exact .refl _
  · split
    · exact .remove _ _
    · exact .refl _

theorem idle_watches (hwork : s.work = .idle) (h : s.proceed a = some t) : t.watches = s.watches := by
  rcases proceed_idle hwork h with ⟨_, _, -, rfl⟩ | ⟨_, _, _, _, _, -, rfl⟩ | ⟨_, _, _, -, rfl⟩ | ⟨_, _, -, -, rfl⟩
  · rfl
  · rfl
  · rfl
  · exact handleEvent_watches _ _

theorem later_proceed (h : s.proceed a = some t) : s.watches.Later t.watches := by
  cases hwork : s.work with
  | idle => exact idle_watches hwork h ▸ .refl _
  | addWatch f =>
    simp only [FontState.proceed, hwork] at h
    cases h
    exact later_addWatch s f a
  | removeWatch f =>
    simp only [FontState.proceed, hwork] at h
    cases h
    exact later_removeWatch s f
  | openFolder path =>
    simp only [FontState.proceed, hwork] at h
    cases h
    exact openFolder_watches s path ▸ .refl _
  | modify path isAdd =>
    simp only [FontState.proceed, hwork] at h
    cases h
    exact modify_watches .. ▸ .refl _
  -- any other step concerns no watch
  | AddMonitorFolder _ | access _ | addPath _ | removePath _ | checkFontsDir _ | rehash _ =>
    simp only [FontState.proceed, hwork] at h
    cases h
    exact .refl _

theorem later_discard (s : FontState) (k : Inode) : s.watches.Later (s.discard k).watches := by
  unfold FontState.discard
  split
  · exact .refl _
  · exact .drop _ _

theorem moved_watches {i j k : Inode} {n m : Name} (h : s.tree.child i n = some k ∧ j < s.tree.next) :
    (s.moved i n j m k h).watches = s.watches := by
  simp [FontState.moved, FontState.forget]

theorem setFontsDir_watches {possible : Prop} [Decidable possible] {i : Inode} {file : Option Bool} {mask : UInt32}
    (h : (if possible then some (s.setFontsDir i file mask) else none) = some t) : t.watches = s.watches := by
  split at h
  · cases h
    simp [FontState.setFontsDir]
  · cases h

theorem later_change (h : s.change c = some t) : s.watches.Later t.watches := by
  cases c with
  | mkdir i n =>
    simp only [FontState.change] at h
    split at h
    · cases h
      rw [notify_watches]
      exact .refl _
    · cases h
  | rmdir i n =>
    simp only [FontState.change] at h
    split at h
    · cases h
    · split at h
      · cases h
        have hlater := later_discard ((({ s with tree := s.tree.unlink i n } : FontState).forget i n).notify i (IN_DELETE ||| IN_ISDIR) n)
        simp only [notify_watches] at hlater
        exact hlater _
      · cases h
  | rename i n j m =>
    simp only [FontState.change] at h
    split at h
    · cases h
    · split at h
      · split at h
        · cases h
          exact moved_watches _ ▸ .refl _
        · cases h
          have hlater := later_discard (s.moved i n j m _ ⟨‹_›, (‹_ ∧ _›).1⟩)
          rw [moved_watches] at hlater
          exact hlater _
      · cases h
  | create i readable => exact setFontsDir_watches h ▸ .refl _
  | rewrite i => exact setFontsDir_watches h ▸ .refl _
  | remove i => exact setFontsDir_watches h ▸ .refl _
  | moveIn i readable => exact setFontsDir_watches h ▸ .refl _
  | moveOut i => exact setFontsDir_watches h ▸ .refl _

end Watched

/-! ## Runs -/

section Runs

variable {tree : DirTree (Option Root) Name} {fontsDir : Inode → Option Bool} {labels : List FontLabel} {s t : FontState}
  {l : FontLabel}

theorem catalogued_start (tree : DirTree (Option Root) Name) (fontsDir : Inode → Option Bool) :
    Catalogued (.start tree fontsDir) := by
  have hentry : ∀ {p w}, (FontState.start tree fontsDir).catalog.entry p ≠ some w := by
    rintro ⟨_ | r, ns⟩ w hp <;> cases hp
  -- only the roots are to be added
  have hroot : ∀ {p}, (FontState.start tree fontsDir).catalog.due p → ∃ r, p = (some r, []) := by
    rintro p (hp | ⟨frame, hmem, hp⟩)
    · exact hp.elim
    · simp only [FontState.start, List.mem_append] at hmem
      rcases hmem with hmem | hmem
      · split at hmem
        · obtain rfl := List.mem_singleton.1 hmem
          exact ⟨_, hp⟩
        · cases hmem
      · split at hmem
        · obtain rfl := List.mem_singleton.1 hmem
          exact ⟨_, hp⟩
        · cases hmem
  exact {
    sound :=
      { wd_inj := fun p q w hp => absurd hp hentry
        wd_used := fun p w hp => absurd hp hentry
        said_used := fun x hx => by cases hx
        due_up := by
          intro p n hp
          obtain ⟨r, hr⟩ := hroot hp
          exact absurd hr Place.sub_ne_root
        status := fun p w hp => absurd hp hentry }
    wds := by simp [FontState.start]
    building := fun f hf => by cases hf
    leaving := fun f w hf => by cases hf }

theorem catalogued_step (hs : Catalogued s) (h : OrderlyStep s l t) : Catalogued t := by
  obtain ⟨hstep, horderly⟩ := h
  cases l with
  | change c => exact catalogued_change hs horderly hstep
  | monitor a => exact catalogued_proceed hs horderly hstep

theorem later_step (h : s.step l = some t) : s.watches.Later t.watches := by
  cases l with
  | change c => exact later_change h
  | monitor a => exact later_proceed h

theorem later_run (h : Run OrderlyStep s labels t) : s.watches.Later t.watches :=
  h.invariant (I := fun u => s.watches.Later u.watches) (fun _ _ _ hu hstep => hu.trans (later_step hstep.1)) (.refl _)

theorem Catalogued.distinctWatches (hs : Catalogued s) : s.DistinctWatches := by
  intro f hf g hg hwd
  obtain ⟨w, hw⟩ := Option.ne_none_iff_exists'.1 (hs.wds f hf)
  have hplace := hs.sound.wd_inj f.m_path.place g.m_path.place w (entryAt_eq_some.2 ⟨f, hf, rfl, hw⟩)
    (entryAt_eq_some.2 ⟨g, hg, rfl, hwd ▸ hw⟩)
  -- and the map has one folder for a path
  have hfind := find_of_mem hg
  rw [← FolderPath.place_injective hplace, find_of_mem hf] at hfind
  exact Option.some.inj hfind

theorem event?_eq_some {event : inotify_event} (h : s.event? = some event) : ∃ rest, s.queue = event :: rest := by
  unfold FontState.event? at h
  split at h
  · exact ⟨s.queue.tail, List.eq_cons_of_mem_head? h⟩
  · cases h

/-- An event is applied to the folder at whose path the watched directory is. -/
theorem Catalogued.applies {event : inotify_event} {f : FontFolder} (hs : Catalogued s) (h : s.Applies event f) :
    ∃ i, s.resolve f.m_path = some i ∧ (i, event.wd) ∈ s.watches.marks := by
  obtain ⟨hevent, hname, hfolder⟩ := h
  obtain ⟨rest, hqueue⟩ := event?_eq_some hevent
  cases hreport : event.report? with
  | none => exact absurd (report?_of_none hreport) hname
  | some x =>
    obtain ⟨-, hwd, -⟩ := report?_eq_some hreport
    have hentry : s.catalog.entry f.m_path.place = some x.wd := hwd ▸ (folderOf_eq_some hfolder).2
    obtain ⟨w, hw, i, hi, hmark⟩ := hs.sound.hears (said_queue hqueue hreport) hentry f.m_path.place (Place.under_refl _)
    obtain rfl := Option.some.inj (hentry.symm.trans hw)
    exact ⟨i, hi, hwd ▸ hmark⟩

/-- Every descriptor is of one folder, and an event is applied to the folder whose path names the
directory that has its descriptor; no other directory had it at any time. -/
theorem one_watch_one_folder (h : Run OrderlyStep (.start tree fontsDir) labels s) :
    s.DistinctWatches ∧ ∀ event f, s.Applies event f →
      ∃ i, s.resolve f.m_path = some i ∧ (i, event.wd) ∈ s.watches.marks ∧
        ∀ past later u j, labels = past ++ later → Run OrderlyStep (.start tree fontsDir) past u →
          Run OrderlyStep u later s → (j, event.wd) ∈ u.watches.marks → j = i := by
  have hs : Catalogued s :=
    h.invariant (I := Catalogued) (fun _ _ _ hs hstep => catalogued_step hs hstep) (catalogued_start tree fontsDir)
  refine ⟨hs.distinctWatches, fun event f hf => ?_⟩
  obtain ⟨i, hi, hmark⟩ := hs.applies hf
  refine ⟨i, hi, hmark, ?_⟩
  rintro past later u j - - hlater hj
  exact (later_run hlater).inode_eq hj hmark

end Runs

/-- A folder without sub-folders is renamed, and then a directory is made in it. -/
def renameThenMkdir : List FontLabel :=
  startAndMkdir ++ .change (.rename 0 dirA 0 dirC) :: monitorSteps 10 ++ [.change (.mkdir 1 dirB)]

theorem one_watch_one_folder_renamed : ∃ s, Run OrderlyStep (.start bareTree fun _ => none) renameThenMkdir s ∧
    s.DistinctWatches ∧ ∃ event f, s.Applies event f ∧ f.m_path = ⟨.ALT_DISTRO_FONT_PATH, [dirC]⟩ ∧
      ∃ i, s.resolve f.m_path = some i ∧ (i, event.wd) ∈ s.watches.marks := by
  have hend : (follow FontState.step FontState.orderly (.start bareTree fun _ => none) renameThenMkdir).any
      (fun s => s.event?.any fun event => event.name ≠ none ∧
        (s.folderOf event.wd).any fun f => f.m_path = ⟨.ALT_DISTRO_FONT_PATH, [dirC]⟩) := by
    decide +kernel
  obtain ⟨s, hrun, hs⟩ := Run.exists_of_follow hend
  obtain ⟨event, hevent, h⟩ := (Option.any_eq_true ..).1 hs
  obtain ⟨hname, hfolder⟩ := of_decide_eq_true h
  obtain ⟨f, hf, hpath⟩ := (Option.any_eq_true ..).1 hfolder
  obtain ⟨hdistinct, happlies⟩ := one_watch_one_folder hrun
  obtain ⟨i, hi, hmark, -⟩ := happlies event f ⟨hevent, hname, hf⟩
  exact ⟨s, hrun, hdistinct, event, f, ⟨hevent, hname, hf⟩, of_decide_eq_true hpath, i, hi, hmark⟩

/-- The entry of `a/b` outlives the rename of `a`, with the descriptor that `c/b` gets. What happens in `c/b`
is applied to it. -/
theorem renamed_subfolder_shares_watch : ∃ s, Run (fun s l t => FontState.step s l = some t) (.start bareTree fun _ => none)
    (renameTracked ++ [.change (.mkdir 2 dirA)]) s ∧ ¬ s.DistinctWatches ∧
      ∃ event f, s.Applies event f ∧ s.resolve f.m_path = none := by
  have hend : (follow FontState.step (fun _ _ => true) (.start bareTree fun _ => none)
      (renameTracked ++ [.change (.mkdir 2 dirA)])).any (fun s =>
        ((s.m_fontMonitorFolders.find (FolderPath.str ⟨.ALT_DISTRO_FONT_PATH, [dirA, dirB]⟩)).any fun f =>
          (s.m_fontMonitorFolders.find (FolderPath.str ⟨.ALT_DISTRO_FONT_PATH, [dirC, dirB]⟩)).any fun g =>
            f ≠ g ∧ f.m_wd = g.m_wd) ∧
        s.event?.any fun event => event.name ≠ none ∧ (s.folderOf event.wd).any fun f => s.resolve f.m_path = none) := by
    decide +kernel
  obtain ⟨s, hrun, hs⟩ := Run.exists_of_follow hend
  obtain ⟨hshared, happlied⟩ := of_decide_eq_true hs
  obtain ⟨f, hf, hg⟩ := (Option.any_eq_true ..).1 hshared
  obtain ⟨g, hg, hfg⟩ := (Option.any_eq_true ..).1 hg
  obtain ⟨hne, hwd⟩ := of_decide_eq_true hfg
  obtain ⟨event, hevent, h⟩ := (Option.any_eq_true ..).1 happlied
  obtain ⟨hname, hfolder⟩ := of_decide_eq_true h
  obtain ⟨f', hf', hgone⟩ := (Option.any_eq_true ..).1 hfolder
  refine ⟨s, hrun.mono fun _ _ _ hstep => hstep.1, fun hdistinct => ?_, event, f', ⟨hevent, hname, hf'⟩, of_decide_eq_true hgone⟩
  exact hne (hdistinct f (KeyedSet.find_eq_some.1 hf).1 g (KeyedSet.find_eq_some.1 hg).1 hwd)

end Wslg.Wslgd
