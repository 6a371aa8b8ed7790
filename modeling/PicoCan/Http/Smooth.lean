import PicoCan.Http.World

/-!
# Worlds in which no call fails

In a smooth world every call succeeds with some progress; how much is still up to the
environment. What `send_all` and the receive loops do there does not depend on it: all
the data goes out, and the bytes come in as they were sent, in whatever pieces.
-/

namespace PicoCan.Http

open Calls

/-- A call does not fail, and it makes progress. -/
def Fate.Fine (fate : Fate) : Prop := fate.fail = none ∧ fate.count ≠ some 0

instance (fate : Fate) : Decidable fate.Fine := inferInstanceAs (Decidable (_ ∧ _))

theorem Fate.Fine.upTo_pos {fate : Fate} (fine : fate.Fine) {len : Nat} (pos : 0 < len) :
    0 < fate.upTo len := by
  have progress := fine.2
  unfold Luck.upTo
  cases count : fate.count with
  | none => simpa using pos
  | some n =>
      have : n ≠ 0 := fun zero => progress (by rw [count, zero])
      simp only [Option.getD_some]
      omega

/-! ## What a run leaves behind -/

namespace World

/-- No call of a kind fails, and none makes no progress. -/
def FineAt (w : World) (kind : Kind) : Prop := ∀ fate ∈ w.fates kind, fate.Fine

/-- What is left of the fates: the calls made so far took theirs off the front. -/
def Later (w w' : World) : Prop := ∀ kind, w'.fates kind <:+ w.fates kind

theorem Later.refl (w : World) : Later w w := fun _ => List.suffix_rfl

theorem Later.trans {w w' w'' : World} (first : Later w w') (rest : Later w' w'') :
    Later w w'' := fun kind => (rest kind).trans (first kind)

theorem fatesAfter_suffix (w : World) (kind k : Kind) : w.fatesAfter kind k <:+ w.fates k := by
  unfold fatesAfter
  split
  · exact List.tail_suffix _
  · exact List.suffix_rfl

theorem respond_fates (fate : Fate) (c : HttpCall) (w : World) :
    (respond fate c w).2.fates = w.fates := by
  cases c with
  | recv => simp only [respond]; split <;> rfl
  | send | poll => simp only [respond]; split <;> rfl
  | _ => rfl

theorem serve_later (c : HttpCall) (w : World) : Later w (serve c w).2 := by
  intro kind
  rw [serve, respond_fates]
  exact fatesAfter_suffix w _ _

/-- No call fails, and none makes no progress. -/
def Smooth (w : World) : Prop :=
  ∀ kind, w.FineAt kind

theorem Smooth.later {w w' : World} (smooth : w.Smooth) (later : Later w w') : w'.Smooth :=
  fun kind fate hfate => smooth kind fate ((later kind).subset hfate)

theorem FineAt.later {w w' : World} {kind : Kind} (fine : w.FineAt kind) (later : Later w w') :
    w'.FineAt kind := fun fate hfate => fine fate ((later kind).subset hfate)

theorem FineAt.fate {w : World} {kind : Kind} (fine : w.FineAt kind) : (w.fate kind).Fine := by
  unfold World.fate
  cases fates : w.fates kind with
  | nil => exact ⟨rfl, fun h => nomatch h⟩
  | cons fate rest => exact fine fate (fates ▸ List.mem_cons_self)

theorem not_fineAt {w : World} {kind : Kind} {e : Can.Errno} (fails : (w.fate kind).fail = some e) :
    ¬ w.FineAt kind := by
  intro fine
  have free := fine.fate.1
  rw [fails] at free
  cases free

theorem Smooth.fate {w : World} (smooth : w.Smooth) (kind : Kind) : (w.fate kind).Fine :=
  FineAt.fate (smooth kind)

end World

open World

theorem run_later {α : Type} (p : HttpProg α) (w : World) : Later w (runIn p w).2 := by
  have only : p.Only fun _ => True := p.only_true
  exact only.run_keeps (I := Later w) (fun c s _ before => before.trans (serve_later c s))
    (Later.refl w)

/-- Calls of other kinds leave the fates of a kind to those that come. -/
theorem run_fates {α : Type} {kind : Kind} {p : HttpProg α} (only : p.Only fun c => c.kind ≠ kind)
    (w : World) : (runIn p w).2.fates kind = w.fates kind := by
  refine only.run_keeps (I := fun s : World => s.fates kind = w.fates kind) ?_ rfl
  intro c s other before
  show (respond (s.fate c.kind) c { s with fates := s.fatesAfter c.kind }).2.fates kind = _
  rw [respond_fates]
  exact (if_neg fun same => other same.symm).trans before

/-- The calls that take no bytes off the connection. -/
def NoRecv (c : HttpCall) : Prop :=
  match c with
  | .recv _ _ _ => False
  | _ => True

theorem run_inbound {α : Type} {p : HttpProg α} (only : p.Only NoRecv) (w : World) :
    (runIn p w).2.inbound = w.inbound ∧ (runIn p w).2.ending = w.ending := by
  refine only.run_keeps (I := fun s : World => s.inbound = w.inbound ∧ s.ending = w.ending) ?_
    ⟨rfl, rfl⟩
  intro c s call before
  cases c with
  | recv => exact call.elim
  | send | poll => simp only [serve, respond]; split <;> exact before
  | _ => exact before

/-! ## Sending -/

/-- The calls that put nothing on the connection. -/
def NoSend (c : HttpCall) : Prop :=
  match c with
  | .send _ _ => False
  | _ => True

theorem serve_sent {c : HttpCall} (other : NoSend c) (w : World) :
    (serve c w).2.sent = w.sent := by
  cases c with
  | send => exact other.elim
  | recv | poll => simp only [serve, respond]; split <;> rfl
  | _ => rfl

theorem run_sent {α : Type} {p : HttpProg α} (only : p.Only NoSend) (w : World) :
    (runIn p w).2.sent = w.sent :=
  only.run_keeps (I := fun s : World => s.sent = w.sent)
    (fun _ s call same => (serve_sent call s).trans same) rfl

theorem serve_send {w : World} (fine : (w.fate .send).Fine) (fd : Fd) {data : Bytes}
    (some : data ≠ []) :
    ∃ n : Count data.length, 0 < n.val ∧ serve (.send fd data) w =
      (.ok n, { w with fates := w.fatesAfter .send, sent := w.sent ++ data.take n.val }) := by
  have pos := fine.upTo_pos (List.length_pos_iff.mpr some)
  refine ⟨⟨_, Luck.upTo_le _ _⟩, pos, ?_⟩
  simp only [serve, HttpCall.kind, respond, fine.1]

/-- Everything is sent, in whatever pieces. -/
theorem sendLoop_fine {w : World} (fine : w.FineAt .send) (fd : Fd) (fuel : Nat) (data : Bytes)
    (enough : data.length ≤ fuel) :
    ∃ fates, (∀ kind, fates kind <:+ w.fates kind) ∧
      runIn (sendLoop fd fuel data) w = (0, { w with fates := fates, sent := w.sent ++ data }) := by
  induction fuel generalizing w data with
  | zero =>
      obtain rfl := List.length_eq_zero_iff.mp (Nat.le_zero.mp enough)
      exact ⟨w.fates, fun _ => List.suffix_rfl, by simp [sendLoop]⟩
  | succ fuel ih =>
      by_cases empty : data = []
      · subst empty
        exact ⟨w.fates, fun _ => List.suffix_rfl, by simp [sendLoop]⟩
      have chunk : data.take httpSendChunk ≠ [] := by
        simp [empty, httpSendChunk]
      obtain ⟨n, pos, step⟩ := serve_send fine.fate fd chunk
      have le : n.val ≤ httpSendChunk :=
        Nat.le_trans n.property (List.length_take_le _ _)
      have shorter : (data.drop n.val).length ≤ fuel := by
        rw [List.length_drop]
        omega
      let w' : World := { w with
        fates := w.fatesAfter .send, sent := w.sent ++ (data.take httpSendChunk).take n.val }
      have fine' : w'.FineAt .send := fine.later fun kind => fatesAfter_suffix w .send kind
      obtain ⟨fates, later, run⟩ := ih fine' (data.drop n.val) shorter
      refine ⟨fates, fun kind => (later kind).trans (fatesAfter_suffix w .send kind), ?_⟩
      rw [sendLoop, if_neg empty]
      simp only [perform, Prog.perform_bind, Prog.run_call, step]
      rw [if_neg (Nat.ne_of_gt pos)]
      refine run.trans ?_
      simp only [w', List.take_take, Nat.min_eq_left le, List.append_assoc, List.take_append_drop]

theorem sendAll_fine {w : World} (fine : w.FineAt .send) (fd : Fd) (data : Bytes) :
    ∃ fates, (∀ kind, fates kind <:+ w.fates kind) ∧
      runIn (sendAll fd data) w = (0, { w with fates := fates, sent := w.sent ++ data }) :=
  sendLoop_fine fine fd _ data (Nat.le_refl _)

/-! ## Receiving -/

/-- A receive takes some bytes off the front of what the client has sent, or it delivers
nothing; where no receive fails, only when there are none. -/
theorem serve_recv (w : World) (fd : Fd) (offset : Nat) {len : Nat} (pos : 0 < len) :
    ((w.FineAt .recv → w.inbound = []) ∧ ((∃ e, serve (.recv fd offset len) w =
        (.error e, { w with fates := w.fatesAfter .recv })) ∨
      serve (.recv fd offset len) w =
        (.ok ⟨[], Nat.zero_le _⟩, { w with fates := w.fatesAfter .recv }))) ∨
    (∃ (chunk : Chunk len) (rest : Bytes), chunk.val ≠ [] ∧ w.inbound = chunk.val ++ rest ∧
      serve (.recv fd offset len) w =
        (.ok chunk, { w with fates := w.fatesAfter .recv, inbound := rest })) := by
  cases fails : (w.fate .recv).fail with
  | some e =>
      refine .inl ⟨fun fine => ?_, .inl ⟨e, by simp only [serve, HttpCall.kind, respond, fails]⟩⟩
      rw [fine.fate.1] at fails
      cases fails
  | none =>
      cases inbound : w.inbound with
      | nil =>
          refine .inl ⟨fun _ => rfl, ?_⟩
          cases ending : w.ending with
          | some e =>
              exact .inl ⟨e, by simp only [serve, HttpCall.kind, respond, fails, inbound, ending]⟩
          | none =>
              refine .inr ?_
              simp only [serve, HttpCall.kind, respond, fails, inbound, ending, List.take_nil,
                List.drop_nil]
      | cons b rest =>
          by_cases none : (w.fate .recv).upTo len = 0
          · refine .inl ⟨fun fine => ?_, .inr ?_⟩
            · have := fine.fate.upTo_pos pos
              omega
            · simp only [serve, HttpCall.kind, respond, fails, inbound, none, List.take_zero,
                List.drop_zero]
          · refine .inr ⟨⟨(b :: rest).take ((w.fate .recv).upTo len),
              Nat.le_trans (List.length_take_le _ _) (Luck.upTo_le _ _)⟩,
              (b :: rest).drop ((w.fate .recv).upTo len), ?_, (List.take_append_drop _ _).symm, ?_⟩
            · simp [none]
            · simp only [serve, HttpCall.kind, respond, fails, inbound]

end PicoCan.Http
