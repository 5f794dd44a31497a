import Wslg.FontRules
/-!
# Only the intended trees are monitored

A folder is tracked under the string of its path, and a path is one below a root by
construction. What the scan and the events may add is below something tracked, and
of the mount font root only `X11`.
-/

open Lib

namespace Wslg.Wslgd.Operations

/-! ## Strings of paths -/

theorem components_flatMap {names : List CharString} {n : CharString} (h : ∀ x ∈ n :: names, 0x2F ∉ x) :
    components (· = 0x2F) (n ++ names.flatMap (fun x => 0x2F :: x)) = n :: names := by
  induction names generalizing n with
  | nil =>
    rw [List.flatMap_nil, List.append_nil]
    exact List.splitOnP_eq_singleton fun x hx =>
      decide_eq_false fun heq => h n List.mem_cons_self (heq ▸ hx)
  | cons m names ih =>
    have hslash : components (· = 0x2F) (n ++ 0x2F :: (m ++ names.flatMap (fun x => 0x2F :: x))) = _ :=
      components_append (decide_eq_true rfl)
    rw [List.flatMap_cons, List.cons_append, hslash, ih fun x hx => h x (List.mem_cons_of_mem _ hx)]
    have hn : components (· = 0x2F) n = [n] := List.splitOnP_eq_singleton fun x hx =>
      decide_eq_false fun heq => h n List.mem_cons_self (heq ▸ hx)
    rw [hn, List.singleton_append]

/-- The names of a path. -/
def pathNames (p : FolderPath) : List CharString := p.root.names ++ p.below.map Name.bytes

theorem Root.names_ne_nil (r : Root) : ∀ x ∈ r.names, x ≠ [] := by
  cases r <;> simp [Root.names, bytes]

theorem pathNames_valid {p : FolderPath} {x : CharString} (hx : x ∈ pathNames p) : x ≠ [] ∧ 0x2F ∉ x := by
  rcases List.mem_append.1 hx with hx | hx
  · exact ⟨Root.names_ne_nil _ x hx, p.root.names_slash x hx⟩
  · obtain ⟨n, -, rfl⟩ := List.mem_map.1 hx
    exact ⟨n.valid.1, n.valid.2.1⟩

theorem pathNames_ne_nil (p : FolderPath) : pathNames p ≠ [] := by
  obtain ⟨r, ns⟩ := p
  cases r <;> exact List.cons_ne_nil _ _

theorem str_head (p : FolderPath) : p.str.head? = some 0x2F := by
  obtain ⟨r, ns⟩ := p
  cases r <;> rfl

theorem str_last (p : FolderPath) : p.str.getLast? ≠ some 0x2F := by
  obtain ⟨names, n, hnames⟩ := (List.eq_nil_or_concat' (pathNames p)).resolve_left (pathNames_ne_nil p)
  have hn : n ≠ [] ∧ 0x2F ∉ n := pathNames_valid (hnames ▸ List.mem_append_right _ (List.mem_singleton_self n))
  intro hlast
  change ((pathNames p).flatMap _).getLast? = _ at hlast
  rw [hnames, List.flatMap_append, List.flatMap_singleton, List.getLast?_append_of_ne_nil _ (List.cons_ne_nil _ _),
    List.getLast?_cons_of_ne_nil hn.1] at hlast
  exact hn.2 (List.mem_of_getLast? hlast)

theorem str_sub (p : FolderPath) (n : Name) : (p.sub n).str = p.str ++ 0x2F :: n.bytes := by
  simp [FolderPath.str, FolderPath.sub]

theorem slash_str (p : FolderPath) (n : Name) : slash p.str n.bytes = (p.sub n).str := by
  have hne : p.str ≠ [] := by
    intro hnil
    have := str_head p
    rw [hnil] at this
    cases this
  rw [slash, if_neg (not_or.2 ⟨hne, str_last p⟩), str_sub]

theorem elements_str (p : FolderPath) : elements p.str = pathNames p := by
  have hcomponents : components (· = 0x2F) p.str = [] :: pathNames p :=
    components_flatMap (n := []) fun x hx => by
      rcases List.mem_cons.1 hx with rfl | hx
      · simp
      · exact (pathNames_valid hx).2
  rw [elements, if_neg fun h => str_last p h.2, hcomponents, List.filter_cons_of_neg (by simp)]
  exact List.filter_eq_self.2 fun x hx => decide_eq_true (pathNames_valid hx).1

theorem roots_str : FolderPath.mount.str = USER_DISTRO_FONT_PATH ∧
    (FolderPath.mount.sub X11).str = USER_DISTRO_FONT_PATH ++ bytes "/X11" ∧
      FolderPath.str ⟨.ALT_DISTRO_FONT_PATH, []⟩ = ALT_DISTRO_FONT_PATH := by
  decide +kernel

theorem mount_str : FolderPath.mount.str = USER_DISTRO_FONT_PATH := roots_str.1

theorem X11_str : (FolderPath.mount.sub X11).str = USER_DISTRO_FONT_PATH ++ bytes "/X11" := roots_str.2.1

theorem alt_str : FolderPath.str ⟨.ALT_DISTRO_FONT_PATH, []⟩ = ALT_DISTRO_FONT_PATH := roots_str.2.2

/-- A path of the monitor that compares equal to the mount font root is the mount font root. -/
theorem samePath_mount {p : FolderPath} : samePath p.str USER_DISTRO_FONT_PATH ↔ p = .mount := by
  rw [samePath, ← mount_str, decide_eq_true_iff, str_head, str_head, elements_str, elements_str]
  constructor
  · rintro ⟨-, hnames⟩
    apply FolderPath.str_injective
    change (pathNames p).flatMap _ = (pathNames .mount).flatMap _
    rw [hnames]
  · rintro rfl
    exact ⟨Iff.rfl, rfl⟩

/-! ## The intended trees -/

/-- The mount font root, its `X11`, the alternative font root, and what is below the last two. -/
def Intended (key : CharString) : Prop :=
  key = USER_DISTRO_FONT_PATH ∨
    (key = USER_DISTRO_FONT_PATH ++ bytes "/X11" ∨ Beneath 0x2F (USER_DISTRO_FONT_PATH ++ bytes "/X11") key) ∨
    key = ALT_DISTRO_FONT_PATH ∨ Beneath 0x2F ALT_DISTRO_FONT_PATH key

theorem str_beneath (r : Root) (above : List Name) (n : Name) (below : List Name) :
    Beneath 0x2F (FolderPath.str ⟨r, above⟩) (FolderPath.str ⟨r, above ++ n :: below⟩) := by
  refine ⟨n.bytes ++ (below.map Name.bytes).flatMap (fun x => 0x2F :: x), ?_⟩
  simp [FolderPath.str]

theorem intended_of_monitored {p : FolderPath} (h : Monitored p) : Intended p.str := by
  obtain ⟨r, ns⟩ := p
  cases r with
  | ALT_DISTRO_FONT_PATH =>
    refine .inr (.inr ?_)
    rw [← alt_str]
    cases ns with
    | nil => exact .inl rfl
    | cons n ns => exact .inr (str_beneath _ [] n ns)
  | USER_DISTRO_FONT_PATH =>
    rcases ns with _ | ⟨n, ns⟩
    · exact .inl mount_str
    · obtain rfl : n = X11 := by simpa [Monitored] using h
      refine .inr (.inl ?_)
      rw [← X11_str]
      cases ns with
      | nil => exact .inl rfl
      | cons m ns => exact .inr (str_beneath _ [X11] m ns)

/-- The string of a path that is monitored. -/
def Followed (path : CharString) : Prop := ∃ p : FolderPath, Monitored p ∧ path = p.str

theorem followed_sub {path : CharString} {name : Name} (h : Followed path)
    (hmount : samePath path USER_DISTRO_FONT_PATH → name = X11) : Followed (slash path name.bytes) := by
  obtain ⟨p, hp, rfl⟩ := h
  exact ⟨p.sub name, monitored_sub hp fun heq => hmount (samePath_mount.2 heq), slash_str p name⟩

theorem kept_followed : KeptByAll Followed fun folders _ => ∀ f ∈ folders.elems, Followed f.m_path where
  roots := ⟨⟨.mount, .inl rfl, mount_str.symm⟩, ⟨⟨.ALT_DISTRO_FONT_PATH, []⟩, trivial, alt_str.symm⟩⟩
  X11 := ⟨FolderPath.mount.sub Wslgd.X11, .inr rfl, X11_str.symm⟩
  entry path name hpath hne := by
    refine followed_sub hpath fun hsame => ?_
    obtain ⟨p, -, rfl⟩ := hpath
    rw [samePath_mount.1 hsame, mount_str] at hne
    exact (hne rfl).elim
  event folders trace f name h hf hnot := followed_sub (h f hf) fun hsame => by_contra fun hne => hnot ⟨hsame, hne⟩
  quiet _ _ _ _ h := h
  created _ _ _ h := h
  read _ _ _ h := h
  tracked folders trace path f ext hpath _ hmade h g hg := by
    rcases KeyedSet.mem_insert.1 hg with hg | ⟨rfl, -⟩
    · exact h g hg
    · exact hmade.m_path.symm ▸ hpath
  dropped _ _ _ _ _ _ _ _ _ _ h := h
  removed _ _ _ _ _ _ _ _ h g hg := h g (KeyedSet.mem_erase.1 hg).1
  modified folders trace f isAdd f' ext hf hmodified h g hg := by
    rcases KeyedSet.mem_update.1 hg with ⟨rfl, -⟩ | ⟨hg, -⟩
    · exact hmodified.m_path.symm ▸ h f hf
    · exact h g hg

/-! ## Every run -/

/-- Not a path added by hand. -/
def Operation.isOwn : Operation → Bool
  | .AddMonitorFolder _ => false
  | _ => true

/-- Nothing of the alternative font root is below the mount font root. -/
theorem not_below_mount (rest : CharString) : ¬ USER_DISTRO_FONT_PATH <+: ALT_DISTRO_FONT_PATH ++ rest := by
  intro h
  have hneither : ¬ (USER_DISTRO_FONT_PATH <+: ALT_DISTRO_FONT_PATH ∨ ALT_DISTRO_FONT_PATH <+: USER_DISTRO_FONT_PATH) := by
    decide +kernel
  exact hneither (List.prefix_or_prefix_of_prefix h (List.prefix_append _ rest))

theorem beneath_mount {key : CharString} (h : Intended key) (hbeneath : Beneath 0x2F USER_DISTRO_FONT_PATH key) :
    key = USER_DISTRO_FONT_PATH ++ bytes "/X11" ∨ Beneath 0x2F (USER_DISTRO_FONT_PATH ++ bytes "/X11") key := by
  rcases h with rfl | h | h
  · exact (hbeneath.ne rfl).elim
  · exact h
  · obtain ⟨rest, hrest⟩ : ∃ rest, key = ALT_DISTRO_FONT_PATH ++ rest := by
      rcases h with rfl | ⟨n, rfl⟩
      · exact ⟨[], (List.append_nil _).symm⟩
      · exact ⟨_, rfl⟩
    obtain ⟨n, hn⟩ := hbeneath
    exact (not_below_mount rest (hrest ▸ hn ▸ List.prefix_append _ _)).elim

/-- Every key is one of the intended trees, and below the mount font root only `X11` is tracked. -/
theorem only_intended_trees {W : Type} {env : Linux W} {w : W} {as : List Operation} {s : FontMachine W}
    (hown : ∀ a ∈ as, a.isOwn) (hrun : Run (Step env) (.start w) as s) :
    ∀ key ∈ s.monitor.m_fontMonitorFolders.keys, Intended key ∧
      (Beneath 0x2F USER_DISTRO_FONT_PATH key →
        key = USER_DISTRO_FONT_PATH ++ bytes "/X11" ∨ Beneath 0x2F (USER_DISTRO_FONT_PATH ++ bytes "/X11") key) := by
  have hno : ∀ path, .AddMonitorFolder path ∈ as → Followed path :=
    fun path hmem => absurd (hown _ hmem) Bool.false_ne_true
  have hstart : ∀ f ∈ (FontMachine.start w).monitor.m_fontMonitorFolders.elems, Followed f.m_path :=
    fun f hf => nomatch hf
  have hfollowed := kept_followed.run hno hstart hrun
  intro key hkey
  obtain ⟨f, hf, rfl⟩ := List.mem_map.1 hkey
  obtain ⟨p, hp, heq⟩ := hfollowed f hf
  have hintended := heq ▸ intended_of_monitored hp
  exact ⟨hintended, beneath_mount hintended⟩

/-- A folder appears below the mount font root, and one below `X11`. -/
theorem only_intended_trees_created :
    let as := [.Start (.success 7), .event ⟨5, IN_CREATE ||| IN_ISDIR, some c_fontsdir⟩,
      .event ⟨7, IN_CREATE ||| IN_ISDIR, some c_fontsdir⟩]
    let s := as.foldl (perform (.plain fun _ => [])) (.start 3)
    s.monitor.m_fontMonitorFolders.keys.length = 4 ∧ ∀ key ∈ s.monitor.m_fontMonitorFolders.keys, Intended key ∧
      (Beneath 0x2F USER_DISTRO_FONT_PATH key →
        key = USER_DISTRO_FONT_PATH ++ bytes "/X11" ∨ Beneath 0x2F (USER_DISTRO_FONT_PATH ++ bytes "/X11") key) :=
  ⟨by decide +kernel, only_intended_trees (by decide) (run_perform _ _ _)⟩

end Wslg.Wslgd.Operations
