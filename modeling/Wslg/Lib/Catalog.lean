import Wslg.Lib.Mirror
/-!
# Catalogs of a directory tree

A catalog has entries for directories, by their paths, and each has the descriptor of
a watch. What the watches report waits in a queue, and is then handled for the entry
that has the descriptor. The tree may change at any time.

In a sound catalog an entry is of the directory at its path, or is lost: nothing is
handled for it any more. So what is handled for an entry was reported by the
directory at its path.
-/

namespace Lib

variable {R N : Type}

structure Report (N : Type) where
  wd : Wd
  /-- The directory of that name went. -/
  went : Option N

structure Catalog (R N : Type) where
  tree : DirTree R N
  watches : Watches
  said : List (Report N)
  entry : Place R N → Option Wd
  /-- Where a directory is about to be added. -/
  due : Place R N → Prop

namespace Catalog

/-! ## Who is heard of -/

section Mute

variable {entry entry' : Place R N → Option Wd} {p : Place R N} {n : N} {w : Wd} {x : Report N} {l l' : List (Report N)}

/-- The place went, by this report, or is below one that did. -/
def Dooms (entry : Place R N → Option Wd) (x : Report N) (p : Place R N) : Prop :=
  ∃ a n, x.went = some n ∧ entry a = some x.wd ∧ p.Under (a.sub n)

theorem Dooms.sub (h : Dooms entry x p) (n : N) : Dooms entry x (p.sub n) := by
  obtain ⟨a, n', hwent, ha, hunder⟩ := h
  exact ⟨a, n', hwent, ha, hunder.sub n⟩

/-- The descriptor reports nothing before the place is doomed. -/
def Mute (entry : Place R N → Option Wd) (p : Place R N) (w : Wd) : List (Report N) → Prop
  | [] => True
  | x :: rest => Dooms entry x p ∨ (x.wd ≠ w ∧ Mute entry p w rest)

theorem mute_of_forall (h : ∀ x ∈ l, x.wd ≠ w) : Mute entry p w l := by
  induction l with
  | nil => trivial
  | cons x l ih =>
    obtain ⟨hx, hl⟩ := List.forall_mem_cons.1 h
    exact .inr ⟨hx, ih hl⟩

/-- Behind what dooms the place anything may be reported. -/
theorem mute_append : Mute entry p w (l ++ l') ↔ Mute entry p w l ∧ ((∃ x ∈ l, Dooms entry x p) ∨ Mute entry p w l') := by
  induction l with
  | nil => simp [Mute]
  | cons x l ih =>
    rw [List.cons_append, Mute, Mute, ih, List.exists_mem_cons_iff]
    by_cases hx : Dooms entry x p
    · simp only [hx, true_or, true_and]
    · simp only [hx, false_or, and_assoc]

theorem Mute.mono (h : Mute entry p w l) (hdooms : ∀ x ∈ l, Dooms entry x p → Dooms entry' x p) : Mute entry' p w l := by
  induction l with
  | nil => trivial
  | cons x l ih =>
    obtain ⟨hx, hl⟩ := List.forall_mem_cons.1 hdooms
    exact h.imp hx fun h => ⟨h.1, ih h.2 hl⟩

end Mute

/-! ## What is sound -/

section Sound

variable [DecidableEq N] (c : Catalog R N)

/-- The directory at the place has the descriptor. -/
def Present (p : Place R N) (w : Wd) : Prop := ∃ i, c.tree.resolve p.1 p.2 = some i ∧ (i, w) ∈ c.watches.marks

/-- It is the directory at its place, and so are those above it. -/
def Alive (p : Place R N) : Prop := ∀ q, p.Under q → ∃ w, c.entry q = some w ∧ c.Present q w

def Doomed (p : Place R N) : Prop := ∃ x ∈ c.said, Dooms c.entry x p

/-- Its watch is no more, and nothing is about to be added below it. -/
def Gone (p : Place R N) (w : Wd) : Prop := (∀ i, (i, w) ∉ c.watches.marks) ∧ ∀ q, q.Under p → q ≠ p → ¬ c.due q

def Lost (p : Place R N) (w : Wd) : Prop := Mute c.entry p w c.said ∧ (c.Doomed p ∨ c.Gone p w)

structure Sound : Prop where
  wd_inj : ∀ p q w, c.entry p = some w → c.entry q = some w → p = q
  wd_used : ∀ p w, c.entry p = some w → w < c.watches.next
  said_used : ∀ x ∈ c.said, x.wd < c.watches.next
  due_up : ∀ p n, c.due (p.sub n) → c.entry p ≠ none
  status : ∀ p w, c.entry p = some w → c.Alive p ∨ c.Lost p w

end Sound

variable [DecidableEq N] {c c' : Catalog R N} {p q a : Place R N} {i j k : Inode} {n : N} {w : Wd} {x : Report N} {rest told : List (Report N)}
  {due : Place R N → Prop}

theorem Alive.mono (h : c.Alive p) (hentry : ∀ q w, p.Under q → c.entry q = some w → c'.entry q = some w)
    (hpresent : ∀ q w, p.Under q → c.entry q = some w → c.Present q w → c'.Present q w) : c'.Alive p := by
  intro q hq
  obtain ⟨w, hw, hp⟩ := h q hq
  exact ⟨w, hentry q w hq hw, hpresent q w hq hw hp⟩

theorem Alive.sub (h : c.Alive p) (hw : c.entry (p.sub n) = some w) (hp : c.Present (p.sub n) w) : c.Alive (p.sub n) := by
  intro q hq
  rcases hq.of_sub with rfl | hq
  · exact ⟨w, hw, hp⟩
  · exact h q hq

omit [DecidableEq N] in
/-- More reports, none of them without a watch. -/
theorem Lost.append (h : c.Lost p w) (hentry : c'.entry = c.entry) (hsaid : c'.said = c.said ++ told)
    (hmarks : c'.watches.marks ⊆ c.watches.marks) (hdue : ∀ q, c'.due q → c.due q)
    (htold : ∀ x ∈ told, ∃ i, (i, x.wd) ∈ c.watches.marks) : c'.Lost p w := by
  unfold Lost Doomed Gone
  rw [hentry, hsaid, mute_append]
  obtain ⟨hmute, ⟨x, hx, hdooms⟩ | ⟨hunmarked, hnodue⟩⟩ := h
  · exact ⟨⟨hmute, .inl ⟨x, hx, hdooms⟩⟩, .inl ⟨x, List.mem_append_left _ hx, hdooms⟩⟩
  · refine ⟨⟨hmute, .inr (mute_of_forall fun x hx heq => ?_)⟩, .inr ⟨fun i hi => hunmarked i (hmarks hi), ?_⟩⟩
    · obtain ⟨i, hi⟩ := htold x hx
      exact hunmarked i (heq ▸ hi)
    · exact fun q hq hne hd => hnodue q hq hne (hdue q hd)

/-- What is handled next was reported by the directory at the entry's place. -/
theorem Sound.hears (h : c.Sound) (hsaid : c.said = x :: rest) (hp : c.entry p = some x.wd) : c.Alive p := by
  rcases h.status p x.wd hp with halive | ⟨hmute, -⟩
  · exact halive
  · rw [hsaid] at hmute
    rcases hmute with ⟨a, n, -, ha, hunder⟩ | ⟨hne, -⟩
    · -- no place is below itself
      obtain rfl := h.wd_inj a p x.wd ha hp
      exact absurd hunder Place.not_under_sub
    · exact absurd rfl hne

/-! ## The tree -/

/-- What is there stays where it is. -/
theorem Sound.grow (h : c.Sound) {tree : DirTree R N}
    (hstay : ∀ r ns k, c.tree.resolve r ns = some k → tree.resolve r ns = some k)
    (htold : ∀ x ∈ told, ∃ i, (i, x.wd) ∈ c.watches.marks) :
    ({ c with tree := tree, said := c.said ++ told } : Catalog R N).Sound := by
  refine { h with said_used := ?_, status := ?_ }
  · intro x hx
    rcases List.mem_append.1 hx with hx | hx
    · exact h.said_used x hx
    · obtain ⟨i, hi⟩ := htold x hx
      exact c.watches.used i x.wd hi
  · intro p w hp
    rcases h.status p w hp with halive | hlost
    · refine .inl (halive.mono (fun _ _ _ hq => hq) ?_)
      rintro q v - - ⟨i, hi, hmark⟩
      exact ⟨i, hstay _ _ _ hi, hmark⟩
    · exact .inr (hlost.append rfl rfl (List.Subset.refl _) (fun _ hq => hq) htold)

theorem Alive.unlink (h : c.Alive p) (hpasses : ¬ c.tree.Passes p.1 p.2 i n) :
    ({ c with tree := c.tree.unlink i n } : Catalog R N).Alive p := by
  refine h.mono (fun _ _ _ hq => hq) ?_
  rintro q v ⟨ns, rfl⟩ - ⟨j, hj, hmark⟩
  exact ⟨j, (DirTree.resolve_unlink hj).resolve_right fun hq => hpasses (hq.append ns), hmark⟩

/-- A directory went from another, and nothing was waiting to be handled that it had reported. -/
theorem Sound.cut (h : c.Sound) (i : Inode) (n : N) (told : List (Report N))
    (hall : ∀ v, (i, v) ∈ c.watches.marks → ⟨v, some n⟩ ∈ told)
    (hof : ∀ x ∈ told, (i, x.wd) ∈ c.watches.marks)
    (hmute : ∀ p w, c.entry p = some w → c.tree.Passes p.1 p.2 i n → Mute c.entry p w c.said) :
    ({ c with tree := c.tree.unlink i n, said := c.said ++ told } : Catalog R N).Sound := by
  refine { h with said_used := ?_, status := ?_ }
  · intro x hx
    rcases List.mem_append.1 hx with hx | hx
    · exact h.said_used x hx
    · exact c.watches.used i x.wd (hof x hx)
  · intro p w hp
    rcases h.status p w hp with halive | hlost
    · by_cases hpasses : c.tree.Passes p.1 p.2 i n
      · -- the directory above the cut is watched, so what is below it is doomed
        have hm := hmute p w hp hpasses
        obtain ⟨above, below, hbelow, hi⟩ := hpasses
        have hunder : p.Under (Place.sub (p.1, above) n) := ⟨below, Prod.ext rfl (by simp [Place.sub, hbelow])⟩
        obtain ⟨v, hv, i', hi', hmark⟩ := halive (p.1, above) (Place.under_sub hunder)
        obtain rfl : i = i' := Option.some.inj (hi.symm.trans hi')
        refine .inr ⟨mute_append.2 ⟨hm, .inr (mute_of_forall fun x hx heq => ?_)⟩, .inl ?_⟩
        · -- it is not the cut directory that reports
          obtain rfl : w = v := c.watches.inode_unique i _ _ (heq ▸ hof x hx) hmark
          rw [h.wd_inj p (p.1, above) w hp hv] at hunder
          exact Place.not_under_sub hunder
        · exact ⟨_, List.mem_append_right _ (hall v hmark), (p.1, above), n, rfl, hv, hunder⟩
      · exact .inl (halive.unlink hpasses)
    · exact .inr (hlost.append rfl rfl (List.Subset.refl _) (fun _ hq => hq) fun x hx => ⟨i, hof x hx⟩)

/-- What is no more in the tree is watched no more. -/
theorem Alive.drop (h : c.Alive p) (hroot : ∀ r, c.tree.root r ≠ some k) (hlinks : ∀ l ∈ c.tree.links, l.target ≠ k) :
    ({ c with watches := c.watches.drop k } : Catalog R N).Alive p := by
  refine h.mono (fun _ _ _ hq => hq) ?_
  rintro q v - - ⟨i, hi, hmark⟩
  refine ⟨i, hi, Watches.mem_drop.2 ⟨hmark, fun heq => ?_⟩⟩
  exact DirTree.resolve_ne hroot hlinks q.1 q.2 (heq ▸ hi)

theorem Sound.gone (h : c.Sound) (hroot : ∀ r, c.tree.root r ≠ some k) (hlinks : ∀ l ∈ c.tree.links, l.target ≠ k) :
    ({ c with watches := c.watches.drop k } : Catalog R N).Sound := by
  refine { h with status := fun p w hp => ?_ }
  rcases h.status p w hp with halive | hlost
  · exact .inl (halive.drop hroot hlinks)
  · exact .inr (hlost.append rfl (List.append_nil _).symm (fun x hx => (Watches.mem_drop.1 hx).1) (fun _ hq => hq) (by simp))

/-- An empty directory is replaced, and nobody says so. -/
theorem Sound.replace (h : c.Sound) (hlink : ⟨i, n, k⟩ ∈ c.tree.links) (hempty : ∀ l ∈ c.tree.links, l.dir ≠ k)
    (hquiet : ∀ p w, c.entry p = some w → c.tree.Passes p.1 p.2 i n →
      Mute c.entry p w c.said ∧ ∀ q, q.Under p → q ≠ p → ¬ c.due q) :
    ({ c with tree := c.tree.unlink i n, watches := c.watches.drop k } : Catalog R N).Sound := by
  have hroot : ∀ r, (c.tree.unlink i n).root r ≠ some k := fun r hr => c.tree.root_free r k hr _ hlink rfl
  have hlinks : ∀ l ∈ (c.tree.unlink i n).links, l.target ≠ k := by
    intro l hl heq
    obtain ⟨hl, hne⟩ := DirTree.mem_unlink.1 hl
    obtain rfl := c.tree.parent l hl _ hlink heq
    exact hne ⟨rfl, rfl⟩
  refine { h with status := fun p w hp => ?_ }
  rcases h.status p w hp with halive | hlost
  · by_cases hpasses : c.tree.Passes p.1 p.2 i n
    · obtain ⟨hm, hnodue⟩ := hquiet p w hp hpasses
      refine .inr ⟨hm, .inr ⟨fun j hj => ?_, hnodue⟩⟩
      -- the entry is of the directory that was replaced, and nothing else has its descriptor
      obtain ⟨v, hv, k', hk', hmark⟩ := halive p (Place.under_refl p)
      obtain rfl := Option.some.inj (hp.symm.trans hv)
      obtain rfl := hpasses.resolve_eq hlink hempty hk'
      obtain ⟨hj, hne⟩ := Watches.mem_drop.1 hj
      exact hne (c.watches.wd_unique j k' w hj hmark)
    · exact .inl ((halive.unlink hpasses).drop hroot hlinks)
  · exact .inr (hlost.append rfl (List.append_nil _).symm (fun x hx => (Watches.mem_drop.1 hx).1) (fun _ hq => hq) (by simp))

/-- What the watch of a directory reports. -/
def reports (c : Catalog R N) (i : Inode) (went : Option N) : List (Report N) :=
  match c.watches.wdOf i with
  | none => []
  | some w => [⟨w, went⟩]

omit [DecidableEq N] in
theorem mem_reports {went : Option N} : x ∈ c.reports i went ↔ (i, x.wd) ∈ c.watches.marks ∧ x.went = went := by
  unfold reports
  cases hw : c.watches.wdOf i with
  | none => simp [Watches.not_mem_of_wdOf hw]
  | some w =>
    rw [List.mem_singleton]
    constructor
    · rintro rfl
      exact ⟨Watches.wdOf_eq_some.1 hw, rfl⟩
    · rintro ⟨hx, rfl⟩
      rw [c.watches.inode_unique i w x.wd (Watches.wdOf_eq_some.1 hw) hx]

section Move

variable {m : N}

/-- A directory gets a name that nothing had. -/
theorem Sound.move (h : c.Sound) (hmove : c.tree.child i n = some k ∧ j < c.tree.next) (hfree : c.tree.child j m = none)
    (hmute : ∀ p w, c.entry p = some w → c.tree.Passes p.1 p.2 i n → Mute c.entry p w c.said) :
    ({ c with
      tree := c.tree.move i n j m k hmove
      said := (c.said ++ c.reports i (some n)) ++ c.reports j none } : Catalog R N).Sound := by
  have hcut := h.cut i n (c.reports i (some n)) (fun v hv => mem_reports.2 ⟨hv, rfl⟩) (fun x hx => (mem_reports.1 hx).1) hmute
  refine hcut.grow (fun r ns l hl => DirTree.resolve_mono ?_ ?_ hl) fun x hx => ⟨j, (mem_reports.1 hx).1⟩
  · rfl
  · intro l hl
    obtain ⟨hl, hne⟩ := DirTree.mem_unlink.1 hl
    refine DirTree.mem_move.2 (.inr ⟨hl, hne, ?_⟩)
    rintro ⟨rfl, rfl⟩
    rw [DirTree.child_eq_some.2 hl] at hfree
    cases hfree

/-- A directory replaces an empty one. -/
theorem Sound.moveOver {k' : Inode} (h : c.Sound) (hmove : c.tree.child i n = some k ∧ j < c.tree.next)
    (hlink : ⟨j, m, k'⟩ ∈ c.tree.links) (hempty : ∀ l ∈ c.tree.links, l.dir ≠ k')
    (hmute : ∀ p w, c.entry p = some w → c.tree.Passes p.1 p.2 i n → Mute c.entry p w c.said)
    (hquiet : ∀ p w, c.entry p = some w → c.tree.Passes p.1 p.2 j m →
      Mute c.entry p w c.said ∧ ∀ q, q.Under p → q ≠ p → ¬ c.due q) :
    ({ c with
      tree := c.tree.move i n j m k hmove
      watches := c.watches.drop k'
      said := (c.said ++ c.reports i (some n)) ++ c.reports j none } : Catalog R N).Sound := by
  -- neither directory is the one that is replaced
  have hi : i ≠ k' := hempty _ (DirTree.child_eq_some.1 hmove.1)
  have hj : j ≠ k' := hempty _ hlink
  have hreplaced := h.replace hlink hempty hquiet
  have hcut := hreplaced.cut i n (c.reports i (some n))
    (fun v hv => mem_reports.2 ⟨(Watches.mem_drop.1 hv).1, rfl⟩)
    (fun x hx => Watches.mem_drop.2 ⟨(mem_reports.1 hx).1, hi⟩) ?_
  · refine hcut.grow (fun r ns l hl => DirTree.resolve_mono ?_ ?_ hl) fun x hx =>
      ⟨j, Watches.mem_drop.2 ⟨(mem_reports.1 hx).1, hj⟩⟩
    · rfl
    · intro l hl
      obtain ⟨hl, hne⟩ := DirTree.mem_unlink.1 hl
      obtain ⟨hl, hne'⟩ := DirTree.mem_unlink.1 hl
      exact DirTree.mem_move.2 (.inr ⟨hl, hne, hne'⟩)
  · rintro p w hp ⟨above, below, hbelow, habove⟩
    refine hmute p w hp ⟨above, below, hbelow, DirTree.resolve_mono ?_ ?_ habove⟩
    · rfl
    · exact fun l hl => (DirTree.mem_unlink.1 hl).1

end Move

/-! ## What is handled -/

/-- A watch that no entry has is removed. -/
theorem Sound.unwatch (h : c.Sound) (hentry : ∀ p, c.entry p ≠ some w) :
    ({ c with watches := c.watches.remove w } : Catalog R N).Sound := by
  refine { h with status := fun p v hp => ?_ }
  rcases h.status p v hp with halive | hlost
  · refine .inl (halive.mono (fun _ _ _ hq => hq) ?_)
    rintro q v' - hv' ⟨i, hi, hmark⟩
    exact ⟨i, hi, Watches.mem_remove.2 ⟨hmark, fun heq => hentry q (heq ▸ hv')⟩⟩
  · exact .inr (hlost.append rfl (List.append_nil _).symm (fun x hx => (Watches.mem_remove.1 hx).1) (fun _ hq => hq) (by simp))

/-- Less is about to be added. -/
theorem Sound.turn (h : c.Sound) (hdue : ∀ p, due p → c.due p) : ({ c with due := due } : Catalog R N).Sound := by
  refine { h with due_up := fun p n hp => h.due_up p n (hdue _ hp), status := fun p w hp => ?_ }
  exact (h.status p w hp).imp_right fun hlost =>
    hlost.append rfl (List.append_nil _).symm (List.Subset.refl _) hdue (by simp)

omit [DecidableEq N] in
/-- A report is handled that does not doom what is lost. -/
theorem Lost.tail (h : c.Lost p w) (hsaid : c.said = x :: rest) (hnone : ¬ Dooms c.entry x p)
    (hdooms : ∀ y, Dooms c.entry y p → Dooms c'.entry y p) (hrest : c'.said = rest) (hgone : c.Gone p w → c'.Gone p w) :
    c'.Lost p w := by
  obtain ⟨hmute, hd⟩ := h
  unfold Lost Doomed
  rw [hsaid] at hmute
  rw [hrest]
  refine ⟨(hmute.resolve_left hnone).2.mono fun y _ => hdooms y, hd.imp ?_ hgone⟩
  rintro ⟨y, hy, hyp⟩
  rw [hsaid] at hy
  rcases List.mem_cons.1 hy with rfl | hy
  · exact absurd hyp hnone
  · exact ⟨y, hy, hdooms y hyp⟩

/-- A report is handled that dooms no entry; it may say that something arrived. -/
theorem Sound.hear (h : c.Sound) (hsaid : c.said = x :: rest) (hnone : ∀ p w, c.entry p = some w → ¬ Dooms c.entry x p)
    (hdue : ∀ p, due p → c.due p ∨ ∃ q n, c.entry q = some x.wd ∧ p = q.sub n) :
    ({ c with said := rest, due := due } : Catalog R N).Sound := by
  refine { h with said_used := ?_, due_up := ?_, status := ?_ }
  · exact fun y hy => h.said_used y (hsaid ▸ List.mem_cons_of_mem _ hy)
  · intro p n hp
    rcases hdue _ hp with hp | ⟨q, n', hq, heq⟩
    · exact h.due_up p n hp
    · obtain ⟨rfl, -⟩ := Place.sub_inj heq
      rw [hq]
      exact Option.some_ne_none x.wd
  · intro p w hp
    rcases h.status p w hp with halive | hlost
    · exact .inl halive
    · refine .inr (hlost.tail hsaid (hnone p w hp) (fun _ hy => hy) rfl ?_)
      rintro ⟨hunmarked, hnodue⟩
      refine ⟨hunmarked, fun q hq hne hd => ?_⟩
      rcases hdue q hd with hd | ⟨a, n, ha, rfl⟩
      · exact hnodue q hq hne hd
      · -- whoever reports is alive, and so is whoever is above it
        have hup : a.Under p := hq.of_sub.resolve_left fun heq => hne heq.symm
        obtain ⟨v, hv, i, -, hmark⟩ := h.hears hsaid ha p hup
        obtain rfl := Option.some.inj (hp.symm.trans hv)
        exact hunmarked i hmark

/-! ### The departure of an entry -/

section Depart

variable [DecidableEq R]

/-- The entry of a directory that went is dropped. -/
def depart (c : Catalog R N) (a : Place R N) (n : N) (rest : List (Report N)) : Catalog R N :=
  { c with said := rest, entry := Function.update c.entry (a.sub n) none }

/-- No entry was below it. -/
theorem entry_depart_cases (hbelow : ∀ p, p.Under (a.sub n) → p ≠ a.sub n → c.entry p = none)
    (hp : (c.depart a n rest).entry p = some w) : c.entry p = some w ∧ ¬ p.Under (a.sub n) := by
  unfold depart at hp
  dsimp only at hp
  rw [Function.update_apply] at hp
  split at hp
  · cases hp
  · rename_i hne
    refine ⟨hp, fun hunder => ?_⟩
    rw [hbelow p hunder hne] at hp
    cases hp

theorem entry_depart (hunder : ¬ p.Under (a.sub n)) (hq : p.Under q) : (c.depart a n rest).entry q = c.entry q := by
  refine Function.update_of_ne ?_ ..
  rintro rfl
  exact hunder hq

theorem Alive.depart (h : c.Alive p) (hunder : ¬ p.Under (a.sub n)) : (c.depart a n rest).Alive p :=
  h.mono (fun _ _ hq hv => (entry_depart hunder hq).trans hv) fun _ _ _ _ hpresent => hpresent

theorem Dooms.depart (h : Dooms c.entry x p) (hunder : ¬ p.Under (a.sub n)) : Dooms (c.depart a n rest).entry x p := by
  obtain ⟨b, m, hm, hb, hbelow⟩ := h
  exact ⟨b, m, hm, (entry_depart hunder (Place.under_sub hbelow)).trans hb, hbelow⟩

theorem Sound.depart (h : c.Sound) (hsaid : c.said = x :: rest) (hwent : x.went = some n) (ha : c.entry a = some x.wd)
    (hidle : ∀ p, ¬ c.due p) (hbelow : ∀ p, p.Under (a.sub n) → p ≠ a.sub n → c.entry p = none) :
    (c.depart a n rest).Sound where
  wd_inj p q w hp hq := h.wd_inj p q w (entry_depart_cases hbelow hp).1 (entry_depart_cases hbelow hq).1
  wd_used p w hp := h.wd_used p w (entry_depart_cases hbelow hp).1
  said_used y hy := h.said_used y (hsaid ▸ List.mem_cons_of_mem _ hy)
  due_up p m hp := absurd hp (hidle _)
  status p w hp := by
    obtain ⟨hp, hunder⟩ := entry_depart_cases hbelow hp
    refine (h.status p w hp).imp (fun halive => halive.depart hunder) fun hlost =>
      hlost.tail hsaid ?_ (fun y hy => hy.depart hunder) rfl fun hgone => hgone
    -- this report doomed only what is dropped
    rintro ⟨b, m, hm, hb, hbelow⟩
    obtain rfl := h.wd_inj b a x.wd hb ha
    cases hwent.symm.trans hm
    exact hunder hbelow

end Depart

/-! ## A new entry -/

section Watch

variable [DecidableEq R] {hfresh : c.watches.wdOf i = none}

/-- A directory that is not watched yet gets a watch and an entry. -/
def watch (c : Catalog R N) (p : Place R N) (i : Inode) (hfresh : c.watches.wdOf i = none) (due : Place R N → Prop) :
    Catalog R N :=
  { c with
    watches := c.watches.add i hfresh
    entry := Function.update c.entry p (some c.watches.next)
    due := due }

@[simp] theorem entry_watch_self : (c.watch p i hfresh due).entry p = some c.watches.next := Function.update_self ..

theorem mem_marks_watch {y : Inode × Wd} :
    y ∈ (c.watch p i hfresh due).watches.marks ↔ y = (i, c.watches.next) ∨ y ∈ c.watches.marks :=
  Watches.mem_add (h := hfresh)

theorem entry_watch (habsent : c.entry p = none) (hq : c.entry q = some w) : (c.watch p i hfresh due).entry q = some w := by
  unfold watch
  dsimp only
  rw [Function.update_of_ne, hq]
  rintro rfl
  cases habsent.symm.trans hq

theorem Sound.entry_watch_cases (h : c.Sound) (hq : (c.watch p i hfresh due).entry q = some w) :
    q = p ∧ w = c.watches.next ∨ c.entry q = some w ∧ w < c.watches.next := by
  unfold watch at hq
  dsimp only at hq
  rw [Function.update_apply] at hq
  split at hq
  · exact .inl ⟨‹_›, (Option.some.inj hq).symm⟩
  · exact .inr ⟨hq, h.wd_used q w hq⟩

theorem Dooms.watch (h : Dooms c.entry x q) (habsent : c.entry p = none) : Dooms (c.watch p i hfresh due).entry x q := by
  obtain ⟨b, m, hm, hb, hunder⟩ := h
  exact ⟨b, m, hm, entry_watch habsent hb, hunder⟩

theorem Alive.watch (h : c.Alive q) (habsent : c.entry p = none) : (c.watch p i hfresh due).Alive q := by
  refine h.mono (fun _ _ _ => entry_watch habsent) ?_
  rintro q' v - - ⟨j, hj, hmark⟩
  exact ⟨j, hj, mem_marks_watch.2 (.inr hmark)⟩

/-- Nothing is added below what is gone. -/
theorem Lost.watch (h : c.Lost q w) (hq : c.entry q = some w) (hw : w < c.watches.next) (habsent : c.entry p = none)
    (hdue : c.due p) (hnext : ∀ q, due q → c.due q ∨ ∃ n, q = p.sub n) : (c.watch p i hfresh due).Lost q w := by
  obtain ⟨hmute, hrest⟩ := h
  refine ⟨hmute.mono fun y _ hy => hy.watch habsent, ?_⟩
  rcases hrest with ⟨y, hy, hdooms⟩ | ⟨hunmarked, hnodue⟩
  · exact .inl ⟨y, hy, hdooms.watch habsent⟩
  · refine .inr ⟨fun j hj => ?_, fun q' hq' hne hd => ?_⟩
    · rcases mem_marks_watch.1 hj with heq | hj
      · exact absurd hw ((Prod.mk.inj heq).2 ▸ Nat.lt_irrefl _)
      · exact hunmarked j hj
    · rcases hnext q' hd with hd | ⟨n, rfl⟩
      · exact hnodue q' hq' hne hd
      -- the new entry would be below
      · have hup : p.Under q := hq'.of_sub.resolve_left fun heq => hne heq.symm
        refine hnodue p hup (fun heq => ?_) hdue
        rw [heq, hq] at habsent
        cases habsent

/-- The new entry is below one that is alive or doomed. -/
theorem Sound.watch_self (h : c.Sound) (hdue : c.due p) (habsent : c.entry p = none)
    (hfound : c.tree.resolve p.1 p.2 = some i) :
    (c.watch p i hfresh due).Alive p ∨ (c.watch p i hfresh due).Lost p c.watches.next := by
  have hpresent : (c.watch p i hfresh due).Present p c.watches.next := ⟨i, hfound, mem_marks_watch.2 (.inl rfl)⟩
  obtain ⟨r, ns⟩ := p
  rcases List.eq_nil_or_concat ns with rfl | ⟨ns, n, rfl⟩
  · refine .inl fun q hq => ?_
    obtain rfl := Place.under_root hq
    exact ⟨_, entry_watch_self, hpresent⟩
  · rw [List.concat_eq_append] at hdue habsent hfound hpresent ⊢
    obtain ⟨v, hv⟩ := Option.ne_none_iff_exists'.1 (h.due_up (r, ns) n hdue)
    rcases h.status (r, ns) v hv with halive | ⟨-, ⟨y, hy, hdooms⟩ | ⟨-, hnodue⟩⟩
    · exact .inl ((halive.watch habsent).sub (n := n) entry_watch_self hpresent)
    · -- nothing is reported yet of the new watch
      refine .inr ⟨mute_of_forall fun x hx => Nat.ne_of_lt (h.said_used x hx), .inl ⟨y, hy, ?_⟩⟩
      exact (hdooms.watch habsent).sub n
    · exact absurd hdue (hnodue (Place.sub (r, ns) n) ((Place.under_refl _).sub n) Place.sub_ne_self)

theorem Sound.watch (h : c.Sound) (hdue : c.due p) (habsent : c.entry p = none)
    (hfound : c.tree.resolve p.1 p.2 = some i) (hnext : ∀ q, due q → c.due q ∨ ∃ n, q = p.sub n) :
    (c.watch p i hfresh due).Sound where
  wd_inj p₁ p₂ w h₁ h₂ := by
    rcases h.entry_watch_cases h₁ with ⟨rfl, rfl⟩ | ⟨h₁, hw₁⟩ <;>
      rcases h.entry_watch_cases h₂ with ⟨rfl, hw₂⟩ | ⟨h₂, hw₂⟩
    · rfl
    · exact absurd hw₂ (Nat.lt_irrefl _)
    · exact absurd hw₁ (hw₂ ▸ Nat.lt_irrefl _)
    · exact h.wd_inj p₁ p₂ w h₁ h₂
  wd_used q w hq := by
    rcases h.entry_watch_cases hq with ⟨-, rfl⟩ | ⟨-, hw⟩
    · exact Nat.lt_succ_self _
    · exact Nat.lt_succ_of_lt hw
  said_used y hy := Nat.lt_succ_of_lt (h.said_used y hy)
  due_up q m hq := by
    rcases hnext _ hq with hq | ⟨m', heq⟩
    · obtain ⟨w, hw⟩ := Option.ne_none_iff_exists'.1 (h.due_up q m hq)
      rw [entry_watch habsent hw]
      exact Option.some_ne_none w
    · obtain ⟨rfl, -⟩ := Place.sub_inj heq
      rw [entry_watch_self]
      exact Option.some_ne_none _
  status q w hq := by
    rcases h.entry_watch_cases hq with ⟨rfl, rfl⟩ | ⟨hq, hw⟩
    · exact h.watch_self hdue habsent hfound
    · exact (h.status q w hq).imp (fun halive => halive.watch habsent) fun hlost => hlost.watch hq hw habsent hdue hnext

end Watch

end Catalog

end Lib
