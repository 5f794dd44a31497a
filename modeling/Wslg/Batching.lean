import Wslg.Disk
/-!
# Batches of messages

What a turn of the loop does depends on the bytes it takes, not on those before
or behind them, so it does not matter how the messages are cut into buffers.
-/

open Lib

namespace Wslg

variable {W : Type}

/-! ## One turn -/

/-- What a caller of `OnDataReceived` gets to see. -/
def Received.result (r : Received W) : Returned × Machine W := (r.hr, r.machine)

section Turn

variable {os : OS W} {s : Reading (Machine W)}

theorem result_stop (fuel : Nat) (h : ¬ Running s) : (receiveLoop os fuel s).result = (.S_OK, s.out) := by
  rw [receiveLoop_stop fuel h]
  rfl

/-- A turn that goes well hands over to the rest of the loop. -/
theorem result_turn (fuel : Nat) (hr : Running s) {t : Reading (Machine W)} (h : receive os s = .ok ⟨⟩ t) :
    (receiveLoop os (fuel + 1) s).result = (receiveLoop os fuel t).result := by
  rw [receiveLoop_succ fuel hr]
  cases hh : readHeader s with
  | error x u =>
    rw [receive_error os hh] at h
    cases h
  | ok hd u =>
    rw [receive_ok os hh] at h
    simp only [h]
    rfl

theorem result_last (fuel : Nat) (hr : Running s) {x : ReadStop Stop} {t : Reading (Machine W)}
    (h : receive os s = .error x t) : (receiveLoop os (fuel + 1) s).result = (.failed x, t.out) := by
  rw [receiveLoop_succ fuel hr]
  cases hh : readHeader s with
  | error y u =>
    rw [receive_error os hh] at h
    cases h
    rfl
  | ok hd u =>
    rw [receive_ok os hh] at h
    simp only [h]
    rfl

end Turn

/-- A turn takes some bytes, a header at least, or rejects all there are. -/
theorem receive_cases (os : OS W) (m : Machine W) (bs : List BYTE) :
    (∃ tk rst m', bs = tk ++ rst ∧ 8 ≤ tk.length ∧ Accepts (receive os) m tk ⟨⟩ m') ∨
      ∃ e m', Rejects (receive os) m bs e m' := by
  rcases local_receive os m bs with ⟨tk, rst, ⟨⟩, m', rfl, hacc⟩ | hrej
  · refine .inl ⟨tk, rst, m', rfl, ?_, hacc⟩
    obtain ⟨bs₁, bs₂, hd, m₁, rfl, hhead, -⟩ := (accepts_bind local_readHeader fun h => local_dispatch os h).1 hacc
    obtain ⟨⟨_, hread⟩, -⟩ := (accepts_onLocal local_ReadAppListHeader).1 hhead
    rw [accepts_ReadAppListHeader.1 hread, List.length_append, headerBytes_length]
    omega
  · exact .inr hrej

/-! ## The loop -/

theorem running_between {pre bs : List BYTE} {m : Machine W} :
    Running (.between pre bs m) ↔ bs ≠ [] ∧ m.this.m_bChannelClosed = false := by
  simp [Running]

/-- The loop does not look at what is behind it, and needs a turn for each byte at most. -/
theorem result_shift (os : OS W) {fuel : Nat} {bs : List BYTE} (hfuel : bs.length ≤ fuel) (m : Machine W)
    (pre pre' : List BYTE) {fuel' : Nat} (hfuel' : bs.length ≤ fuel') :
    (receiveLoop os fuel (.between pre bs m)).result = (receiveLoop os fuel' (.between pre' bs m)).result := by
  induction fuel generalizing bs m pre pre' fuel' with
  | zero =>
    obtain rfl : bs = [] := List.eq_nil_of_length_eq_zero (by omega)
    rw [result_stop _ (by simp [running_between]), result_stop _ (by simp [running_between])]
    rfl
  | succ fuel ih =>
    by_cases hr : bs ≠ [] ∧ m.this.m_bChannelClosed = false
    · have hpos := List.length_pos_iff.2 hr.1
      obtain ⟨fuel', rfl⟩ : ∃ f, fuel' = f + 1 := ⟨fuel' - 1, by omega⟩
      rcases receive_cases os m bs with ⟨tk, rst, m', rfl, htk, hacc⟩ | ⟨e, m', hrej⟩
      · rw [List.length_append] at hfuel hfuel'
        rw [result_turn fuel (running_between.2 hr) (hacc pre rst), result_turn fuel' (running_between.2 hr) (hacc pre' rst)]
        exact ih (by omega) m' _ _ (by omega)
      · obtain ⟨t, ht, hout⟩ := hrej pre
        obtain ⟨t', ht', hout'⟩ := hrej pre'
        rw [result_last fuel (running_between.2 hr) ht, result_last fuel' (running_between.2 hr) ht', hout, hout']
    · rw [result_stop _ (mt running_between.1 hr), result_stop _ (mt running_between.1 hr)]
      rfl

/-- Behind a batch that went well the loop goes on as if the rest had come alone. -/
theorem result_append (os : OS W) {fuel : Nat} {a : List BYTE} (hfuel : a.length ≤ fuel) (b : List BYTE)
    {m m' : Machine W} (pre pre' : List BYTE) (ha : (receiveLoop os fuel (.between pre a m)).result = (.S_OK, m')) :
    (receiveLoop os (a ++ b).length (.between pre' (a ++ b) m)).result =
      (receiveLoop os b.length (.between [] b m')).result := by
  induction fuel generalizing a m pre pre' with
  | zero =>
    obtain rfl : a = [] := List.eq_nil_of_length_eq_zero (by omega)
    rw [result_stop _ (by simp [running_between])] at ha
    obtain rfl : m = m' := congrArg Prod.snd ha
    exact result_shift os (Nat.le_refl _) m _ _ (Nat.le_refl _)
  | succ fuel ih =>
    by_cases hr : a ≠ [] ∧ m.this.m_bChannelClosed = false
    · rcases receive_cases os m a with ⟨tk, rst, m₁, rfl, htk, hacc⟩ | ⟨e, m₁, hrej⟩
      · rw [result_turn fuel (running_between.2 hr) (hacc pre rst)] at ha
        -- the same turn in the larger buffer, and then the rest
        have hrun : tk ++ rst ++ b ≠ [] ∧ m.this.m_bChannelClosed = false := ⟨fun h => hr.1 (List.append_eq_nil_iff.1 h).1, hr.2⟩
        have hlen : (tk ++ rst ++ b).length = tk.length + (rst ++ b).length := by
          rw [List.append_assoc, List.length_append]
        obtain ⟨rounds, hrounds⟩ : ∃ n, (tk ++ rst ++ b).length = n + 1 := ⟨(tk ++ rst ++ b).length - 1, by omega⟩
        have hturn := hacc pre' (rst ++ b)
        rw [← List.append_assoc] at hturn
        rw [List.length_append] at hfuel
        rw [hrounds, result_turn _ (running_between.2 hrun) hturn]
        exact (result_shift os (by omega) m₁ _ (pre' ++ tk) (Nat.le_refl (rst ++ b).length)).trans (ih (by omega) _ _ ha)
      · obtain ⟨t, ht, -⟩ := hrej pre
        rw [result_last fuel (running_between.2 hr) ht] at ha
        -- a batch that went well has no turn that fails
        cases congrArg Prod.fst ha
    · rw [result_stop _ (mt running_between.1 hr)] at ha
      obtain rfl : m = m' := congrArg Prod.snd ha
      rcases not_and_or.1 hr with hnil | hclosed
      -- the batch is read
      · obtain rfl : a = [] := not_not.1 hnil
        exact result_shift os (Nat.le_refl _) m _ _ (Nat.le_refl _)
      -- the channel is closed, so that nothing of the rest is read
      · rw [result_stop _ fun h => hclosed (running_between.1 h).2, result_stop _ fun h => hclosed (running_between.1 h).2]
        rfl

/-! ## Calls -/

theorem OnDataReceived_result (os : OS W) (pBuffer : List BYTE) (m : Machine W) :
    (OnDataReceived os pBuffer m).result = (receiveLoop os pBuffer.length (.between [] pBuffer m)).result := by
  unfold OnDataReceived
  split
  · rename_i hc
    rw [result_stop _ fun h => by simp [(running_between.1 h).2] at hc]
    rfl
  · rfl

/-- A batch that goes well may as well come in one buffer with what follows it:
the calls leave the same state, the same trace of effects in it and the same result. -/
theorem batching_does_not_matter (os : OS W) (m : Machine W) (a b : List BYTE) (ha : (OnDataReceived os a m).hr = .S_OK) :
    (OnDataReceived os (a ++ b) m).machine = (OnDataReceived os b (OnDataReceived os a m).machine).machine ∧
      (OnDataReceived os (a ++ b) m).hr = (OnDataReceived os b (OnDataReceived os a m).machine).hr := by
  have hfirst : (receiveLoop os a.length (.between [] a m)).result = (.S_OK, (OnDataReceived os a m).machine) := by
    rw [← OnDataReceived_result, Received.result, ha]
  have hboth := result_append os (Nat.le_refl _) b [] [] hfirst
  rw [← OnDataReceived_result, ← OnDataReceived_result] at hboth
  exact ⟨congrArg Prod.snd hboth, congrArg Prod.fst hboth⟩

theorem batching_does_not_matter_on_disk :
    let m := runOn [] [capsMessage (L "U")]
    let a := updateMessage 0 (L "a") (L "foo")
    (OnDataReceived diskOS (a ++ deleteMessage (L "a")) m).machine =
        (OnDataReceived diskOS (deleteMessage (L "a")) (OnDataReceived diskOS a m).machine).machine ∧
      (OnDataReceived diskOS (a ++ deleteMessage (L "a")) m).hr =
        (OnDataReceived diskOS (deleteMessage (L "a")) (OnDataReceived diskOS a m).machine).hr :=
  batching_does_not_matter diskOS _ _ _ (by decide +kernel)

end Wslg
