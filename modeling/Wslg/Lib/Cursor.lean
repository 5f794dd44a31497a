import Wslg.Lib.Prog
import Mathlib.Tactic.Common
/-!
# Readers that walk a buffer with a cursor

A C reader keeps a pointer `cur` into a buffer and a count `len` of bytes that
remain, checks each read against `len`, and changes a state `out` as it goes.
Reading or writing outside an array is `fault`, turning the input down with an
error `e` is `reject e`, and the state keeps what was done before a reject.

`Accepts r o bs a o'` says what the reader takes: exactly the bytes `bs`,
wherever they stand. `Rejects r o bs e o'` says that it turns `bs` down.
`Local r` says that this is all there is to it: from a cursor that agrees with
the buffer, `r` never faults, and either takes some of the bytes that remain or
rejects them, whatever comes before.
-/

namespace Lib

structure Reading (σ : Type) where
  buf : List UInt8
  cur : Nat
  len : Nat
  out : σ

inductive ReadStop (ε : Type) where
  | reject (e : ε)
  | fault
  deriving DecidableEq

abbrev Reader (ε σ α : Type) := EStateM (ReadStop ε) (Reading σ) α

variable {ε ε' σ τ α β : Type}

namespace Reading

/-- The cursor and the count agree with the buffer. -/
def Valid (s : Reading σ) : Prop := s.cur + s.len = s.buf.length

/-- The bytes that remain. -/
def rest (s : Reading σ) : List UInt8 := s.buf.drop s.cur

/-- A cursor behind `pre`, with `bs` left to read. -/
def between (pre bs : List UInt8) (o : σ) : Reading σ := ⟨pre ++ bs, pre.length, bs.length, o⟩

@[simp] theorem between_out (pre bs : List UInt8) (o : σ) : (between pre bs o).out = o := rfl
@[simp] theorem between_len (pre bs : List UInt8) (o : σ) : (between pre bs o).len = bs.length := rfl
@[simp] theorem between_cur (pre bs : List UInt8) (o : σ) : (between pre bs o).cur = pre.length := rfl
@[simp] theorem between_rest (pre bs : List UInt8) (o : σ) : (between pre bs o).rest = bs := by
  simp [between, rest]

@[simp] theorem between_valid (pre bs : List UInt8) (o : σ) : (between pre bs o).Valid := by
  simp [between, Valid]

theorem Valid.eq_between {s : Reading σ} (h : s.Valid) : s = between (s.buf.take s.cur) s.rest s.out := by
  obtain ⟨buf, cur, len, out⟩ := s
  simp only [Valid] at h
  simp only [between, rest, List.take_append_drop, List.length_take, List.length_drop, mk.injEq, and_true, true_and]
  omega

theorem between_inj {pre pre' bs bs' : List UInt8} {o o' : σ} (h : between pre bs o = between pre' bs' o') :
    pre = pre' ∧ bs = bs' ∧ o = o' := by
  simp only [between, mk.injEq] at h
  obtain ⟨hb, hp, -, ho⟩ := h
  obtain ⟨rfl, rfl⟩ := List.append_inj hb hp
  exact ⟨rfl, rfl, ho⟩

end Reading

/-! ## The steps of a reader -/

def reject (e : ε) : Reader ε σ α := throw (.reject e)

/-- Read `n` bytes: check the count, copy, advance. -/
def takeBytes (e : ε) (n : Nat) : Reader ε σ (List UInt8) := fun s =>
  if n ≤ s.len then
    if s.cur + n ≤ s.buf.length then
      .ok (s.rest.take n) { s with cur := s.cur + n, len := s.len - n }
    else .error .fault s
  else .error (.reject e) s

/-- Change the state. -/
def act (f : σ → α × σ) : Reader ε σ α := fun s => .ok (f s.out).1 { s with out := (f s.out).2 }

def update (f : σ → σ) : Reader ε σ PUnit := act (fun o => (⟨⟩, f o))

/-- Write to the state; `none` stands for a write outside an array. -/
def store (f : σ → Option σ) : Reader ε σ PUnit := fun s =>
  match f s.out with
  | some o => .ok ⟨⟩ { s with out := o }
  | none => .error .fault s

/-- Read `n` bytes into the state; `f bs o = none` stands for a copy that does not fit. -/
def readInto (e : ε) (n : Nat) (f : List UInt8 → σ → Option σ) : Reader ε σ PUnit := fun s =>
  match takeBytes e n s with
  | .ok bs t => store (f bs) t
  | .error x t => .error x t

/-- Run `r` on local copies of the cursor and the count, stored back only when it returns. -/
def onCopy (r : Reader ε σ α) : Reader ε σ α := fun s =>
  match r s with
  | .ok a t => .ok a t
  | .error x t => .error x { t with cur := s.cur, len := s.len }

/-- Undo with `f` when `r` rejects. -/
def orUndo (r : Reader ε σ α) (f : σ → σ) : Reader ε σ α := fun s =>
  match r s with
  | .ok a t => .ok a t
  | .error .fault t => .error .fault t
  | .error (.reject e) t => .error (.reject e) { t with out := f t.out }

/-- Run `r` on the part `get` of the state. -/
def onPart (err : ε → ε') (get : σ → τ) (put : τ → σ → σ) (r : Reader ε τ α) : Reader ε' σ α := fun s =>
  match r { buf := s.buf, cur := s.cur, len := s.len, out := get s.out } with
  | .ok a t => .ok a { buf := t.buf, cur := t.cur, len := t.len, out := put t.out s.out }
  | .error .fault t => .error .fault { buf := t.buf, cur := t.cur, len := t.len, out := put t.out s.out }
  | .error (.reject e) t => .error (.reject (err e)) { buf := t.buf, cur := t.cur, len := t.len, out := put t.out s.out }

/-- Run `r` on a local variable that starts as `o` and return what it ends as. -/
def onLocal (err : ε → ε') (o : τ) (r : Reader ε τ α) : Reader ε' σ τ := fun s =>
  match r { buf := s.buf, cur := s.cur, len := s.len, out := o } with
  | .ok _ t => .ok t.out { buf := t.buf, cur := t.cur, len := t.len, out := s.out }
  | .error .fault t => .error .fault { buf := t.buf, cur := t.cur, len := t.len, out := s.out }
  | .error (.reject e) t => .error (.reject (err e)) { buf := t.buf, cur := t.cur, len := t.len, out := s.out }

/-! ## What a reader takes -/

/-- `r` takes exactly the bytes `bs`, returns `a` and turns the state `o` into `o'`. -/
def Accepts (r : Reader ε σ α) (o : σ) (bs : List UInt8) (a : α) (o' : σ) : Prop :=
  ∀ pre post, r (.between pre (bs ++ post) o) = .ok a (.between (pre ++ bs) post o')

/-- `r` turns `bs` down with `e`, leaving the state `o'`. -/
def Rejects (r : Reader ε σ α) (o : σ) (bs : List UInt8) (e : ε) (o' : σ) : Prop :=
  ∀ pre, ∃ t, r (.between pre bs o) = .error (.reject e) t ∧ t.out = o'

/-- `r` either takes some of the bytes that remain or rejects them. -/
def Local (r : Reader ε σ α) : Prop :=
  ∀ o bs, (∃ tk rst a o', bs = tk ++ rst ∧ Accepts r o tk a o') ∨ ∃ e o', Rejects r o bs e o'

theorem Accepts.run {r : Reader ε σ α} {a : α} {o' : σ} {s : Reading σ} {bs post : List UInt8}
    (h : Accepts r s.out bs a o') (hs : s.Valid) (hr : s.rest = bs ++ post) :
    r s = .ok a (.between (s.buf.take s.cur ++ bs) post o') := by
  conv_lhs => rw [hs.eq_between, hr]
  exact h _ _

/-- What a reader takes, of all that remains, is determined. -/
theorem Accepts.unique {r : Reader ε σ α} {o o₁ o₂ : σ} {bs tk rst : List UInt8} {a₁ a₂ : α}
    (h₁ : Accepts r o bs a₁ o₁) (h₂ : Accepts r o tk a₂ o₂) (h : bs = tk ++ rst) :
    bs = tk ∧ a₁ = a₂ ∧ o₁ = o₂ := by
  have e₁ := h₁ [] []
  have e₂ := h₂ [] rst
  rw [List.append_nil, List.nil_append, h] at e₁
  rw [e₁] at e₂
  simp only [EStateM.Result.ok.injEq] at e₂
  obtain ⟨rfl, hs⟩ := e₂
  obtain ⟨hb, -, rfl⟩ := Reading.between_inj hs
  exact ⟨h.trans hb, rfl, rfl⟩

theorem Accepts.det {r : Reader ε σ α} {o o₁ o₂ : σ} {bs : List UInt8} {a₁ a₂ : α}
    (h₁ : Accepts r o bs a₁ o₁) (h₂ : Accepts r o bs a₂ o₂) : a₁ = a₂ ∧ o₁ = o₂ :=
  (h₁.unique h₂ (List.append_nil bs).symm).2

theorem Accepts.not_rejects {r : Reader ε σ α} {o o₁ o₂ : σ} {bs : List UInt8} {a : α} {e : ε}
    (h : Accepts r o bs a o₁) (h' : Rejects r o bs e o₂) : False := by
  obtain ⟨t, ht, -⟩ := h' []
  have e := h [] []
  rw [List.append_nil, ht] at e
  cases e

theorem Rejects.run {r : Reader ε σ α} {s : Reading σ} {e : ε} {o' : σ} (h : Rejects r s.out s.rest e o')
    (hs : s.Valid) : ∃ t, r s = .error (.reject e) t ∧ t.out = o' := by
  rw [hs.eq_between]
  exact h _

namespace Local

variable {r : Reader ε σ α}

/-- A run that returns has taken some bytes from the front of what remained. -/
theorem of_ok (hr : Local r) {s t : Reading σ} {a : α} (hs : s.Valid) (h : r s = .ok a t) :
    ∃ tk, s.rest = tk ++ t.rest ∧ Accepts r s.out tk a t.out ∧ t.Valid ∧ t.buf = s.buf ∧
      t.cur = s.cur + tk.length := by
  rcases hr s.out s.rest with ⟨tk, rst, a', o', hb, hacc⟩ | ⟨e, o', hrej⟩
  · have e := hacc.run hs hb
    rw [h] at e
    simp only [EStateM.Result.ok.injEq] at e
    obtain ⟨rfl, rfl⟩ := e
    refine ⟨tk, by simpa using hb, by simpa using hacc, by simp, ?_, ?_⟩
    · simp only [Reading.between, List.append_assoc, ← hb, Reading.rest, List.take_append_drop]
    · simp only [Reading.between_cur, List.length_append, List.length_take]
      simp only [Reading.Valid] at hs
      omega
  · obtain ⟨t', ht, -⟩ := hrej.run hs
    rw [h] at ht
    cases ht

/-- A run that stops early rejects all that remained; it never faults. -/
theorem of_error (hr : Local r) {s t : Reading σ} {x : ReadStop ε} (hs : s.Valid) (h : r s = .error x t) :
    ∃ e, x = .reject e ∧ Rejects r s.out s.rest e t.out := by
  rcases hr s.out s.rest with ⟨tk, rst, a', o', hb, hacc⟩ | ⟨e, o', hrej⟩
  · rw [hacc.run hs hb] at h
    cases h
  · obtain ⟨t', ht, ho⟩ := hrej.run hs
    rw [h] at ht
    simp only [EStateM.Result.error.injEq] at ht
    obtain ⟨rfl, rfl⟩ := ht
    exact ⟨e, rfl, ho ▸ hrej⟩

end Local

/-! ## Single steps -/

theorem accepts_pure {a a' : α} {o o' : σ} {bs : List UInt8} :
    Accepts (pure a : Reader ε σ α) o bs a' o' ↔ bs = [] ∧ a' = a ∧ o' = o := by
  constructor
  · intro h
    have e := h [] []
    simp only [List.append_nil, List.nil_append] at e
    change EStateM.Result.ok a _ = _ at e
    simp only [EStateM.Result.ok.injEq] at e
    obtain ⟨ha, hs⟩ := e
    obtain ⟨hb, -, ho⟩ := Reading.between_inj hs
    exact ⟨hb.symm, ha.symm, ho.symm⟩
  · rintro ⟨rfl, rfl, rfl⟩ pre post
    simp only [List.nil_append, List.append_nil]
    rfl

theorem local_pure (a : α) : Local (pure a : Reader ε σ α) :=
  fun o bs => .inl ⟨[], bs, a, o, rfl, accepts_pure.2 ⟨rfl, rfl, rfl⟩⟩

theorem accepts_reject {e : ε} {a : α} {o o' : σ} {bs : List UInt8} :
    Accepts (reject e : Reader ε σ α) o bs a o' ↔ False := by
  refine ⟨fun h => ?_, False.elim⟩
  have e := h [] []
  cases e

theorem local_reject (e : ε) : Local (reject e : Reader ε σ α) :=
  fun o bs => .inr ⟨e, o, fun pre => ⟨.between pre bs o, rfl, rfl⟩⟩

theorem accepts_act {f : σ → α × σ} {a : α} {o o' : σ} {bs : List UInt8} :
    Accepts (act f : Reader ε σ α) o bs a o' ↔ bs = [] ∧ f o = (a, o') := by
  constructor
  · intro h
    have e := h [] []
    simp only [act, Reading.between_out, List.append_nil, List.nil_append, EStateM.Result.ok.injEq] at e
    obtain ⟨ha, hs⟩ := e
    change Reading.between [] bs _ = _ at hs
    obtain ⟨hb, -, ho⟩ := Reading.between_inj hs
    exact ⟨hb.symm, Prod.ext ha ho⟩
  · rintro ⟨rfl, h⟩ pre post
    simp only [act, Reading.between_out, h, List.nil_append, List.append_nil]
    rfl

theorem local_act (f : σ → α × σ) : Local (act f : Reader ε σ α) :=
  fun o bs => .inl ⟨[], bs, (f o).1, (f o).2, rfl, accepts_act.2 ⟨rfl, rfl⟩⟩

theorem accepts_update {f : σ → σ} {o o' : σ} {bs : List UInt8} {u : PUnit} :
    Accepts (update f : Reader ε σ PUnit) o bs u o' ↔ bs = [] ∧ o' = f o := by
  unfold update
  rw [accepts_act]
  simp [Prod.ext_iff, eq_comm]

theorem local_update (f : σ → σ) : Local (update f : Reader ε σ PUnit) := local_act _

theorem accepts_store {f : σ → Option σ} {o o' : σ} {bs : List UInt8} {u : PUnit} :
    Accepts (store f : Reader ε σ PUnit) o bs u o' ↔ bs = [] ∧ f o = some o' := by
  constructor
  · intro h
    have e := h [] []
    simp only [store, Reading.between_out, List.append_nil, List.nil_append] at e
    cases hf : f o with
    | none => rw [hf] at e; cases e
    | some o'' =>
      rw [hf] at e
      simp only [EStateM.Result.ok.injEq] at e
      obtain ⟨-, hs⟩ := e
      change Reading.between [] bs _ = _ at hs
      obtain ⟨hb, -, rfl⟩ := Reading.between_inj hs
      exact ⟨hb.symm, rfl⟩
  · rintro ⟨rfl, h⟩ pre post
    simp only [store, Reading.between_out, h, List.nil_append, List.append_nil]
    rfl

theorem local_store {f : σ → Option σ} (hf : ∀ o, (f o).isSome) : Local (store f : Reader ε σ PUnit) := by
  intro o bs
  obtain ⟨o', ho⟩ := Option.isSome_iff_exists.1 (hf o)
  exact .inl ⟨[], bs, ⟨⟩, o', rfl, accepts_store.2 ⟨rfl, ho⟩⟩

theorem takeBytes_accepts (e : ε) (bs : List UInt8) (o : σ) : Accepts (takeBytes e bs.length) o bs bs o := by
  intro pre post
  simp [takeBytes, Reading.between, Reading.rest]

theorem takeBytes_rejects {n : Nat} {bs : List UInt8} (e : ε) (o : σ) (h : bs.length < n) :
    Rejects (takeBytes e n) o bs e o := by
  intro pre
  refine ⟨.between pre bs o, ?_, rfl⟩
  rw [takeBytes, Reading.between_len, if_neg (by omega)]

theorem local_takeBytes (e : ε) (n : Nat) : Local (takeBytes e n : Reader ε σ _) := by
  intro o bs
  by_cases h : n ≤ bs.length
  · refine .inl ⟨bs.take n, bs.drop n, bs.take n, o, (List.take_append_drop n bs).symm, ?_⟩
    have e := takeBytes_accepts e (bs.take n) o
    rwa [List.length_take, Nat.min_eq_left h] at e
  · exact .inr ⟨e, o, takeBytes_rejects e o (by omega)⟩

theorem accepts_takeBytes {e : ε} {n : Nat} {o o' : σ} {bs a : List UInt8} :
    Accepts (takeBytes e n) o bs a o' ↔ bs.length = n ∧ a = bs ∧ o' = o := by
  constructor
  · intro h
    have hn : n ≤ bs.length := by
      by_contra hlt
      exact h.not_rejects (takeBytes_rejects e o (by omega))
    have e := takeBytes_accepts e (bs.take n) o
    rw [List.length_take, Nat.min_eq_left hn] at e
    obtain ⟨h1, h2, h3⟩ := h.unique e (List.take_append_drop n bs).symm
    refine ⟨?_, by rw [h2, ← h1], h3⟩
    rw [h1, List.length_take, Nat.min_eq_left hn]
  · rintro ⟨rfl, rfl, rfl⟩
    exact takeBytes_accepts _ _ _

theorem readInto_accepts {e : ε} {f : List UInt8 → σ → Option σ} {bs : List UInt8} {o o' : σ}
    (h : f bs o = some o') : Accepts (readInto e bs.length f) o bs ⟨⟩ o' := by
  intro pre post
  simp only [readInto, takeBytes_accepts e bs o pre post, store, Reading.between_out, h]
  rfl

theorem readInto_rejects {e : ε} {n : Nat} {f : List UInt8 → σ → Option σ} {bs : List UInt8} {o : σ}
    (h : bs.length < n) : Rejects (readInto e n f) o bs e o := by
  intro pre
  obtain ⟨t, ht, ho⟩ := takeBytes_rejects e o h pre
  exact ⟨t, by simp only [readInto, ht], ho⟩

theorem local_readInto {e : ε} {n : Nat} {f : List UInt8 → σ → Option σ}
    (hf : ∀ bs o, bs.length = n → (f bs o).isSome) : Local (readInto e n f) := by
  intro o bs
  by_cases h : n ≤ bs.length
  · have hl : (bs.take n).length = n := by rw [List.length_take, Nat.min_eq_left h]
    obtain ⟨o', ho⟩ := Option.isSome_iff_exists.1 (hf (bs.take n) o hl)
    refine .inl ⟨bs.take n, bs.drop n, ⟨⟩, o', (List.take_append_drop n bs).symm, ?_⟩
    have e := readInto_accepts (e := e) ho
    rwa [hl] at e
  · exact .inr ⟨e, o, readInto_rejects (by omega)⟩

theorem accepts_readInto {e : ε} {n : Nat} {f : List UInt8 → σ → Option σ}
    (hf : ∀ bs o, bs.length = n → (f bs o).isSome) {o o' : σ} {bs : List UInt8} {u : PUnit} :
    Accepts (readInto e n f) o bs u o' ↔ bs.length = n ∧ f bs o = some o' := by
  constructor
  · intro h
    have hn : n ≤ bs.length := by
      by_contra hlt
      exact h.not_rejects (readInto_rejects (f := f) (by omega))
    have hl : (bs.take n).length = n := by rw [List.length_take, Nat.min_eq_left hn]
    obtain ⟨o'', ho⟩ := Option.isSome_iff_exists.1 (hf (bs.take n) o hl)
    have e := readInto_accepts (e := e) ho
    rw [hl] at e
    obtain ⟨h1, -, rfl⟩ := h.unique e (List.take_append_drop n bs).symm
    rw [← h1] at ho
    exact ⟨by rw [h1, hl], ho⟩
  · rintro ⟨rfl, h⟩
    exact readInto_accepts h

/-! ## Sequencing -/

theorem run_bind (x : Reader ε σ α) (f : α → Reader ε σ β) (s : Reading σ) :
    (x >>= f) s = match x s with
      | .ok a t => f a t
      | .error x t => .error x t := by
  change EStateM.bind x f s = _
  unfold EStateM.bind
  cases x s <;> rfl

theorem run_update_bind (f : σ → σ) (k : PUnit → Reader ε σ β) (s : Reading σ) :
    (update f >>= k) s = k ⟨⟩ { s with out := f s.out } := rfl

theorem readInto_eq (e : ε) (n : Nat) (f : List UInt8 → σ → Option σ) :
    readInto e n f = (takeBytes e n >>= fun bs => store (f bs)) := by
  funext s
  rw [run_bind, readInto]
  cases takeBytes e n s <;> rfl

theorem Accepts.bind {x : Reader ε σ α} {f : α → Reader ε σ β} {o o₁ o₂ : σ} {bs₁ bs₂ : List UInt8} {a : α} {b : β}
    (h₁ : Accepts x o bs₁ a o₁) (h₂ : Accepts (f a) o₁ bs₂ b o₂) :
    Accepts (x >>= f) o (bs₁ ++ bs₂) b o₂ := by
  intro pre post
  rw [run_bind, List.append_assoc, h₁ pre (bs₂ ++ post)]
  simp only [h₂ (pre ++ bs₁) post, List.append_assoc]

theorem Local.bind {x : Reader ε σ α} {f : α → Reader ε σ β} (hx : Local x) (hf : ∀ a, Local (f a)) :
    Local (x >>= f) := by
  intro o bs
  rcases hx o bs with ⟨bs₁, rst, a, o₁, rfl, h₁⟩ | ⟨e, o', h₁⟩
  · rcases hf a o₁ rst with ⟨bs₂, rst', b, o₂, rfl, h₂⟩ | ⟨e, o₂, h₂⟩
    · exact .inl ⟨bs₁ ++ bs₂, rst', b, o₂, by simp, h₁.bind h₂⟩
    · refine .inr ⟨e, o₂, fun pre => ?_⟩
      obtain ⟨t, ht, ho⟩ := h₂ (pre ++ bs₁)
      exact ⟨t, by rw [run_bind, h₁ pre rst]; exact ht, ho⟩
  · refine .inr ⟨e, o', fun pre => ?_⟩
    obtain ⟨t, ht, ho⟩ := h₁ pre
    exact ⟨t, by rw [run_bind, ht], ho⟩

/-- What a sequence takes is what its parts take, one after the other. -/
theorem accepts_bind {x : Reader ε σ α} {f : α → Reader ε σ β} (hx : Local x) (hf : ∀ a, Local (f a))
    {o o₂ : σ} {bs : List UInt8} {b : β} :
    Accepts (x >>= f) o bs b o₂ ↔
      ∃ bs₁ bs₂ a o₁, bs = bs₁ ++ bs₂ ∧ Accepts x o bs₁ a o₁ ∧ Accepts (f a) o₁ bs₂ b o₂ := by
  constructor
  · intro h
    rcases hx o bs with ⟨bs₁, rst, a, o₁, rfl, h₁⟩ | ⟨e, o', h₁⟩
    · rcases hf a o₁ rst with ⟨bs₂, rst', b', o₂', rfl, h₂⟩ | ⟨e, o₂', h₂⟩
      · obtain ⟨e, rfl, rfl⟩ := h.unique (h₁.bind h₂) (List.append_assoc bs₁ bs₂ rst').symm
        exact ⟨bs₁, bs₂, a, o₁, e, h₁, h₂⟩
      · refine (h.not_rejects (show Rejects _ _ _ e o₂' from fun pre => ?_)).elim
        obtain ⟨t, ht, ho⟩ := h₂ (pre ++ bs₁)
        exact ⟨t, by rw [run_bind, h₁ pre rst]; exact ht, ho⟩
    · refine (h.not_rejects (show Rejects _ _ _ e o' from fun pre => ?_)).elim
      obtain ⟨t, ht, ho⟩ := h₁ pre
      exact ⟨t, by rw [run_bind, ht], ho⟩
  · rintro ⟨bs₁, bs₂, a, o₁, rfl, h₁, h₂⟩
    exact h₁.bind h₂

theorem accepts_update_bind {f : σ → σ} {k : PUnit → Reader ε σ β} {o o' : σ} {bs : List UInt8} {b : β} :
    Accepts (update f >>= k) o bs b o' ↔ Accepts (k ⟨⟩) (f o) bs b o' := Iff.rfl

theorem Local.ite {c : Prop} [Decidable c] {x y : Reader ε σ α} (hx : c → Local x) (hy : ¬ c → Local y) :
    Local (if c then x else y) := by
  split
  · exact hx ‹_›
  · exact hy ‹_›

/-! ## Steps that read nothing -/

/-- What `r` does is the same wherever the cursor stands, and the cursor stays. -/
def Still (r : Reader ε σ α) : Prop :=
  ∀ o, (∃ a o', Accepts r o [] a o') ∨ ∃ e o', ∀ bs, Rejects r o bs e o'

namespace Still

variable {r : Reader ε σ α}

theorem toLocal (hr : Still r) : Local r := fun o bs => by
  rcases hr o with ⟨a, o', h⟩ | ⟨e, o', h⟩
  · exact .inl ⟨[], bs, a, o', rfl, h⟩
  · exact .inr ⟨e, o', h bs⟩

theorem nil_of_accepts (hr : Still r) {o o' : σ} {bs : List UInt8} {a : α} (h : Accepts r o bs a o') : bs = [] := by
  rcases hr o with ⟨a', o'', h'⟩ | ⟨e, o'', h'⟩
  · exact (h.unique h' (List.nil_append bs).symm).1
  · exact (h.not_rejects (h' bs)).elim

theorem pure (a : α) : Still (pure a : Reader ε σ α) := fun o => .inl ⟨a, o, accepts_pure.2 ⟨rfl, rfl, rfl⟩⟩

theorem reject (e : ε) : Still (reject e : Reader ε σ α) :=
  fun o => .inr ⟨e, o, fun bs pre => ⟨.between pre bs o, rfl, rfl⟩⟩

theorem act (f : σ → α × σ) : Still (act f : Reader ε σ α) :=
  fun o => .inl ⟨(f o).1, (f o).2, accepts_act.2 ⟨rfl, rfl⟩⟩

theorem update (f : σ → σ) : Still (update f : Reader ε σ PUnit) := act _

theorem store {f : σ → Option σ} (hf : ∀ o, (f o).isSome) : Still (store f : Reader ε σ PUnit) := fun o => by
  obtain ⟨o', ho⟩ := Option.isSome_iff_exists.1 (hf o)
  exact .inl ⟨⟨⟩, o', accepts_store.2 ⟨rfl, ho⟩⟩

theorem bind {f : α → Reader ε σ β} (hr : Still r) (hf : ∀ a, Still (f a)) : Still (r >>= f) := fun o => by
  rcases hr o with ⟨a, o₁, h₁⟩ | ⟨e, o', h₁⟩
  · rcases hf a o₁ with ⟨b, o₂, h₂⟩ | ⟨e, o₂, h₂⟩
    · exact .inl ⟨b, o₂, h₁.bind h₂⟩
    · refine .inr ⟨e, o₂, fun bs pre => ?_⟩
      obtain ⟨t, ht, ho⟩ := h₂ bs pre
      have h := h₁ pre bs
      rw [List.nil_append, List.append_nil] at h
      exact ⟨t, by rw [run_bind, h]; exact ht, ho⟩
  · refine .inr ⟨e, o', fun bs pre => ?_⟩
    obtain ⟨t, ht, ho⟩ := h₁ bs pre
    exact ⟨t, by rw [run_bind, ht], ho⟩

theorem ite {c : Prop} [Decidable c] {r' : Reader ε σ α} (h : c → Still r) (h' : ¬ c → Still r') :
    Still (if c then r else r') := by
  split
  · exact h ‹_›
  · exact h' ‹_›

end Still

/-- What a reader with nothing but such steps behind it takes. -/
theorem accepts_bind_still {x : Reader ε σ α} {f : α → Reader ε σ β} (hx : Local x) (hf : ∀ a, Still (f a))
    {o o₂ : σ} {bs : List UInt8} {b : β} :
    Accepts (x >>= f) o bs b o₂ ↔ ∃ a o₁, Accepts x o bs a o₁ ∧ Accepts (f a) o₁ [] b o₂ := by
  rw [accepts_bind hx fun a => (hf a).toLocal]
  constructor
  · rintro ⟨bs₁, bs₂, a, o₁, rfl, h₁, h₂⟩
    obtain rfl := (hf a).nil_of_accepts h₂
    exact ⟨a, o₁, by rwa [List.append_nil], h₂⟩
  · rintro ⟨a, o₁, h₁, h₂⟩
    exact ⟨bs, [], a, o₁, (List.append_nil bs).symm, h₁, h₂⟩

/-! ## Scopes -/

/-- A reader on a copy that stops early leaves the caller's cursor and count alone. -/
theorem onCopy_error {r : Reader ε σ α} {s t : Reading σ} {x : ReadStop ε} (h : onCopy r s = .error x t) :
    t.cur = s.cur ∧ t.len = s.len := by
  unfold onCopy at h
  split at h
  · cases h
  · simp only [EStateM.Result.error.injEq] at h
    obtain ⟨-, rfl⟩ := h
    exact ⟨rfl, rfl⟩

theorem accepts_onCopy {r : Reader ε σ α} {o o' : σ} {bs : List UInt8} {a : α} :
    Accepts (onCopy r) o bs a o' ↔ Accepts r o bs a o' := by
  refine forall_congr' fun pre => forall_congr' fun post => ?_
  unfold onCopy
  cases h : r (.between pre (bs ++ post) o) <;> simp

theorem Local.onCopy {r : Reader ε σ α} (hr : Local r) : Local (onCopy r) := by
  intro o bs
  rcases hr o bs with ⟨tk, rst, a, o', hb, h⟩ | ⟨e, o', h⟩
  · exact .inl ⟨tk, rst, a, o', hb, accepts_onCopy.2 h⟩
  · refine .inr ⟨e, o', fun pre => ?_⟩
    obtain ⟨t, ht, ho⟩ := h pre
    refine ⟨{ t with cur := pre.length, len := bs.length }, ?_, ho⟩
    rw [Lib.onCopy, ht, Reading.between_cur, Reading.between_len]

theorem accepts_orUndo {r : Reader ε σ α} {f : σ → σ} {o o' : σ} {bs : List UInt8} {a : α} :
    Accepts (orUndo r f) o bs a o' ↔ Accepts r o bs a o' := by
  refine forall_congr' fun pre => forall_congr' fun post => ?_
  unfold orUndo
  rcases h : r (.between pre (bs ++ post) o) with _ | ⟨_ | _, _⟩ <;> simp

theorem Local.orUndo {r : Reader ε σ α} (hr : Local r) (f : σ → σ) : Local (orUndo r f) := by
  intro o bs
  rcases hr o bs with ⟨tk, rst, a, o', hb, h⟩ | ⟨e, o', h⟩
  · exact .inl ⟨tk, rst, a, o', hb, accepts_orUndo.2 h⟩
  · refine .inr ⟨e, f o', fun pre => ?_⟩
    obtain ⟨t, ht, ho⟩ := h pre
    exact ⟨{ t with out := f t.out }, by rw [Lib.orUndo, ht], by rw [ho]⟩

section Parts

variable {err : ε → ε'} {get : σ → τ} {put : τ → σ → σ} {r : Reader ε τ α}

theorem onPart_accepts {o : σ} {bs : List UInt8} {a : α} {p : τ} (h : Accepts r (get o) bs a p) :
    Accepts (onPart err get put r) o bs a (put p o) := by
  intro pre post
  have e := h pre post
  simp only [Reading.between] at e
  simp only [onPart, Reading.between, e]

theorem Local.onPart (hr : Local r) : Local (onPart err get put r) := by
  intro o bs
  rcases hr (get o) bs with ⟨tk, rst, a, p, hb, h⟩ | ⟨e, p, h⟩
  · exact .inl ⟨tk, rst, a, put p o, hb, onPart_accepts h⟩
  · refine .inr ⟨err e, put p o, fun pre => ?_⟩
    obtain ⟨t, ht, ho⟩ := h pre
    simp only [Reading.between] at ht
    exact ⟨{ t with out := put t.out o }, by simp only [Lib.onPart, Reading.between, ht], by rw [ho]⟩

theorem accepts_onPart (hr : Local r) {o o' : σ} {bs : List UInt8} {a : α} :
    Accepts (onPart err get put r) o bs a o' ↔ ∃ p, Accepts r (get o) bs a p ∧ o' = put p o := by
  constructor
  · intro h
    rcases hr (get o) bs with ⟨tk, rst, a', p, hb, hacc⟩ | ⟨e, p, hrej⟩
    · obtain ⟨e, rfl, rfl⟩ := h.unique (onPart_accepts hacc) hb
      exact ⟨p, e ▸ hacc, rfl⟩
    · refine (h.not_rejects (show Rejects _ _ _ (err e) (put p o) from fun pre => ?_)).elim
      obtain ⟨t, ht, ho⟩ := hrej pre
      simp only [Reading.between] at ht
      exact ⟨{ t with out := put t.out o }, by simp only [Lib.onPart, Reading.between, ht], by rw [ho]⟩
  · rintro ⟨p, h, rfl⟩
    exact onPart_accepts h

theorem onLocal_accepts {o : σ} {q : τ} {bs : List UInt8} {a : α} {p : τ} (h : Accepts r q bs a p) :
    Accepts (onLocal err q r) o bs p o := by
  intro pre post
  have e := h pre post
  simp only [Reading.between] at e
  simp only [onLocal, Reading.between, e]

theorem Local.onLocal (hr : Local r) (q : τ) : Local (onLocal err q r : Reader ε' σ τ) := by
  intro o bs
  rcases hr q bs with ⟨tk, rst, a, p, hb, h⟩ | ⟨e, p, h⟩
  · exact .inl ⟨tk, rst, p, o, hb, onLocal_accepts h⟩
  · refine .inr ⟨err e, o, fun pre => ?_⟩
    obtain ⟨t, ht, -⟩ := h pre
    simp only [Reading.between] at ht
    exact ⟨{ t with out := o }, by simp only [Lib.onLocal, Reading.between, ht], rfl⟩

theorem accepts_onLocal (hr : Local r) {o o' : σ} {q p : τ} {bs : List UInt8} :
    Accepts (onLocal err q r : Reader ε' σ τ) o bs p o' ↔ (∃ a, Accepts r q bs a p) ∧ o' = o := by
  constructor
  · intro h
    rcases hr q bs with ⟨tk, rst, a', p', hb, hacc⟩ | ⟨e, p', hrej⟩
    · obtain ⟨e, rfl, rfl⟩ := h.unique (onLocal_accepts hacc) hb
      exact ⟨⟨a', e ▸ hacc⟩, rfl⟩
    · refine (h.not_rejects (show Rejects _ _ _ (err e) o from fun pre => ?_)).elim
      obtain ⟨t, ht, -⟩ := hrej pre
      simp only [Reading.between] at ht
      exact ⟨{ t with out := o }, by simp only [Lib.onLocal, Reading.between, ht], rfl⟩
  · rintro ⟨⟨a, h⟩, rfl⟩
    exact onLocal_accepts h

end Parts

end Lib
