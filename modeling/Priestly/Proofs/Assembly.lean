/-
Module: Priestly.Proofs.Assembly
Layer: Proofs
Purpose: The reassembly of whole frames against the message grammar: frames that carry messages are
  assembled into them, and what is assembled is a message of the grammar unless a text or binary frame
  interrupted it.
Imports: Priestly.Transport.Assembly
Trusted boundary: none
Main exports: Passes, assemble_cases, openAfter_passes, fragments_of_passes, assemble_carries
-/
import Priestly.Transport.Assembly

namespace Priestly

open ByteCodec

/-! ### One frame -/

/-- A data frame is an orphan, or extends the message under assembly: a continuation frame under the
opcode of the message, another one under its own. -/
theorem WsFrame.effect_data {frame : WsFrame} (hdata : frame.isData = true)
    (pending : Option Gathered) :
    (frame.effect pending = .orphan ∧ frame.opcode = .cont ∧ pending = none) ∨
      ∃ opcode, frame.effect pending = frame.extend opcode (WsFrame.gatheredData pending) ∧
        ((frame.opcode = .cont ∧ pending.map Gathered.opcode = some opcode) ∨
          (frame.opcode = opcode ∧ (opcode = .text ∨ opcode = .binary))) := by
  rw [WsFrame.effect.eq_def]
  cases hopcode : frame.opcode with
  | cont =>
      cases pending with
      | none => exact .inl ⟨rfl, rfl, rfl⟩
      | some message => exact .inr ⟨message.opcode, rfl, .inl ⟨rfl, rfl⟩⟩
  | text => exact .inr ⟨.text, rfl, .inr ⟨rfl, .inl rfl⟩⟩
  | binary => exact .inr ⟨.binary, rfl, .inr ⟨rfl, .inr rfl⟩⟩
  | close => simp [WsFrame.isData, hopcode, Opcode.isControl] at hdata
  | ping => simp [WsFrame.isData, hopcode, Opcode.isControl] at hdata
  | pong => simp [WsFrame.isData, hopcode, Opcode.isControl] at hdata

/-- A control frame closes, or is a ping or a pong. -/
theorem WsFrame.control_cases {frame : WsFrame} (h : ¬ frame.isData = true) :
    frame.opcode = .close ∨ frame.opcode = .ping ∨ frame.opcode = .pong := by
  cases hopcode : frame.opcode with
  | close => exact .inl rfl
  | ping => exact .inr (.inl rfl)
  | pong => exact .inr (.inr rfl)
  | cont => exact absurd (by rw [WsFrame.isData, hopcode]; rfl) h
  | text => exact absurd (by rw [WsFrame.isData, hopcode]; rfl) h
  | binary => exact absurd (by rw [WsFrame.isData, hopcode]; rfl) h

/-! ### Frames that leave a message under assembly -/

/-- A frame behind which the call goes on, and the message that is then under assembly. -/
inductive Onward (pending : Option Gathered) (frame : WireFrame) : Option Gathered → Prop where
  | control (pingPong : frame.content.opcode = .ping ∨ frame.content.opcode = .pong) :
      Onward pending frame pending
  | more {message : Gathered} (data : frame.content.isData = true)
      (extended : frame.content.effect pending = .more message) : Onward pending frame (some message)

/-- Frames behind which the call goes on. -/
inductive Passes : Option Gathered → List WireFrame → Option Gathered → Prop where
  | nil {pending : Option Gathered} : Passes pending [] pending
  | cons {pending between pending' : Option Gathered} {frame : WireFrame} {frames : List WireFrame}
      (onward : Onward pending frame between) (rest : Passes between frames pending') :
      Passes pending (frame :: frames) pending'

/-- The call goes on behind a frame, or the frame ends it. -/
theorem onward_cases (pending : Option Gathered) (frame : WireFrame) :
    (∃ between, Onward pending frame between) ∨
      (frame.content.opcode = .close ∧ frame.content.effect pending = .close) ∨
      (frame.content.opcode = .cont ∧ pending = none ∧ frame.content.effect pending = .orphan) ∨
      ∃ message, frame.content.isData = true ∧ frame.content.fin = true ∧
        frame.content.effect pending = .complete message := by
  by_cases hdata : frame.content.isData = true
  · rcases WsFrame.effect_data hdata pending with ⟨heffect, hcont, hnone⟩ | ⟨opcode, heffect, _⟩
    · exact .inr (.inr (.inl ⟨hcont, hnone, heffect⟩))
    · rw [WsFrame.extend] at heffect
      by_cases hfin : frame.content.fin = true
      · rw [if_pos hfin] at heffect
        exact .inr (.inr (.inr ⟨_, hdata, hfin, heffect⟩))
      · rw [if_neg hfin] at heffect
        exact .inl ⟨_, .more hdata heffect⟩
  · rcases WsFrame.control_cases hdata with hopcode | hopcode
    · exact .inr (.inl ⟨hopcode, by rw [WsFrame.effect.eq_def, hopcode]⟩)
    · exact .inl ⟨pending, .control hopcode⟩

/-- The machine goes on behind such a frame. -/
theorem Onward.assemble {pending between : Option Gathered} {frame : WireFrame}
    (h : Onward pending frame between) (frames : List WireFrame) :
    assemble pending (frame :: frames) = Priestly.assemble between frames := by
  rw [Priestly.assemble]
  cases h with
  | control hcontrol =>
      rcases hcontrol with hopcode | hopcode
      · rw [WsFrame.effect.eq_def, hopcode]
      · rw [WsFrame.effect.eq_def, hopcode]
  | more _ hmore => rw [hmore]

/-- A data frame leaves a message under assembly when it is not final and no orphan. -/
theorem Onward.data {pending between : Option Gathered} {frame : WireFrame}
    (h : Onward pending frame between) (hdata : frame.content.isData = true) :
    ∃ opcode, between = some { opcode, data := WsFrame.gatheredData pending ++ frame.payload } ∧
      frame.content.fin = false ∧
      ((frame.content.opcode = .cont ∧ pending.map Gathered.opcode = some opcode) ∨
        (frame.content.opcode = opcode ∧ (opcode = .text ∨ opcode = .binary))) := by
  cases h with
  | control hcontrol =>
      rcases hcontrol with hopcode | hopcode
      · rw [WsFrame.isData, hopcode] at hdata
        cases hdata
      · rw [WsFrame.isData, hopcode] at hdata
        cases hdata
  | more _ hmore =>
      rcases WsFrame.effect_data hdata pending with ⟨heffect, _, _⟩ | ⟨opcode, heffect, hopcode⟩
      · rw [heffect] at hmore
        cases hmore
      · rw [heffect, WsFrame.extend] at hmore
        by_cases hfin : frame.content.fin = true
        · rw [if_pos hfin] at hmore
          cases hmore
        · rw [if_neg hfin] at hmore
          cases hmore
          exact ⟨opcode, rfl, Bool.eq_false_of_not_eq_true hfin, hopcode⟩

/-- Such a frame does not close, and the grammar too has a message open behind it when one is under
assembly. -/
theorem Onward.isOpenAfter {pending between : Option Gathered} {frame : WireFrame}
    (h : Onward pending frame between) :
    frame.content.opcode ≠ .close ∧
      Priestly.isOpenAfter pending.isSome frame.content = between.isSome := by
  rw [Priestly.isOpenAfter]
  by_cases hdata : frame.content.isData = true
  · obtain ⟨opcode, rfl, hfin, hopcode⟩ := h.data hdata
    rcases hopcode with ⟨hcont, hpending⟩ | ⟨hown, htype⟩
    · have hsome : pending.isSome = true := by
        cases pending with
        | none => cases hpending
        | some message => rfl
      simp [hcont, hfin, hsome]
    · rcases htype with rfl | rfl
      · simp [hown, hfin]
      · simp [hown, hfin]
  · cases h with
    | control hcontrol =>
        rcases hcontrol with hopcode | hopcode
        · simp [hopcode]
        · simp [hopcode]
    | more hdata' _ => exact absurd hdata' hdata

namespace Passes

variable {pending between pending' : Option Gathered} {first second frames : List WireFrame}

/-- Frames that pass do so from the first on. -/
theorem of_append (h : Passes pending (first ++ second) pending') :
    ∃ between, Passes pending first between ∧ Passes between second pending' := by
  induction first generalizing pending with
  | nil => exact ⟨pending, .nil, h⟩
  | cons frame first ih =>
      cases h with
      | cons honward hrest =>
          obtain ⟨between, hfirst, hsecond⟩ := ih hrest
          exact ⟨between, .cons honward hfirst, hsecond⟩

/-- None of them closes. -/
theorem noClose (h : Passes pending frames pending') :
    ∀ frame ∈ frames.map WireFrame.content, frame.opcode ≠ .close := by
  induction h with
  | nil => simp
  | cons honward _ ih =>
      intro frame hframe
      rcases List.mem_cons.mp hframe with rfl | hframe
      · exact honward.isOpenAfter.1
      · exact ih frame hframe

/-- The grammar has a message open behind them when one is under assembly. -/
theorem openAfter (h : Passes pending frames pending') :
    Priestly.openAfter pending.isSome (frames.map WireFrame.content) = pending'.isSome := by
  induction h with
  | nil => rfl
  | cons honward _ ih =>
      rw [Priestly.openAfter] at ih ⊢
      rw [List.map_cons, List.foldl_cons, honward.isOpenAfter.2]
      exact ih

/-- A message under assembly stays so. -/
theorem isSome (h : Passes pending frames pending') (hsome : pending.isSome = true) :
    pending'.isSome = true := by
  induction h with
  | nil => exact hsome
  | cons honward _ ih =>
      apply ih
      cases honward with
      | control _ => exact hsome
      | more _ _ => rfl

end Passes

/-- A message under assembly is text or binary. -/
theorem Passes.type {pending pending' : Option Gathered} {frames : List WireFrame}
    (h : Passes pending frames pending')
    (hpending : ∀ message ∈ pending, message.opcode = .text ∨ message.opcode = .binary) :
    ∀ message ∈ pending', message.opcode = .text ∨ message.opcode = .binary := by
  induction h with
  | nil => exact hpending
  | cons honward _ ih =>
      apply ih
      intro message hmessage
      cases honward with
      | control _ => exact hpending message hmessage
      | more hdata hmore =>
          obtain ⟨opcode, hbetween, _, ⟨_, hopcode⟩ | ⟨_, htype⟩⟩ := (Onward.more hdata hmore).data hdata
          · obtain ⟨begun, hbegun, rfl⟩ := Option.map_eq_some_iff.mp hopcode
            rw [← Option.mem_some.mp hmessage, Option.some.inj hbetween]
            exact hpending begun hbegun
          · rw [← Option.mem_some.mp hmessage, Option.some.inj hbetween]
            exact htype

/-- A completed message is text or binary. -/
theorem type_of_complete {pending : Option Gathered} {passed : List WireFrame} {last : WireFrame}
    {message : Gathered} (h : Passes none passed pending) (hdata : last.content.isData = true)
    (heffect : last.content.effect pending = .complete message) :
    message.opcode = .text ∨ message.opcode = .binary := by
  rcases WsFrame.effect_data hdata pending with ⟨horphan, _, _⟩ | ⟨opcode, hextend, hopcode⟩
  · rw [heffect] at horphan
    cases horphan
  · have hsame : message.opcode = opcode := by
      rw [heffect, WsFrame.extend] at hextend
      split at hextend
      · rw [FrameEffect.complete.inj hextend]
      · cases hextend
    rw [hsame]
    rcases hopcode with ⟨_, hopcode⟩ | ⟨_, htype⟩
    · obtain ⟨begun, hbegun, rfl⟩ := Option.map_eq_some_iff.mp hopcode
      exact h.type (by simp) begun hbegun
    · exact htype

/-- How a call ends: behind frames that it passes the frames are used up, or one of them ends it. -/
theorem assemble_cases (pending : Option Gathered) (frames : List WireFrame) :
    ∃ passed pending', Passes pending passed pending' ∧
      ((frames = passed ∧ assemble pending frames = (.exhausted pending', [])) ∨
        ∃ last unread, frames = passed ++ last :: unread ∧
          ((last.content.opcode = .close ∧ assemble pending frames = (.close last.payload, unread)) ∨
            (last.content.opcode = .cont ∧ pending' = none ∧
              assemble pending frames = (.orphan, unread)) ∨
            ∃ message, last.content.isData = true ∧ last.content.fin = true ∧
              last.content.effect pending' = .complete message ∧
              assemble pending frames = (.message message, unread))) := by
  induction frames generalizing pending with
  | nil => exact ⟨[], pending, .nil, .inl ⟨rfl, rfl⟩⟩
  | cons frame frames ih =>
      rcases onward_cases pending frame with
        ⟨between, honward⟩ | ⟨hclose, heffect⟩ | ⟨hcont, hnone, heffect⟩ | ⟨message, hdata, hfin, heffect⟩
      · obtain ⟨passed, pending', hpassed, hend⟩ := ih between
        refine ⟨frame :: passed, pending', .cons honward hpassed, ?_⟩
        rw [honward.assemble]
        rcases hend with ⟨rfl, hend⟩ | ⟨last, unread, rfl, hend⟩
        · exact .inl ⟨rfl, hend⟩
        · exact .inr ⟨last, unread, rfl, hend⟩
      · refine ⟨[], pending, .nil, .inr ⟨frame, frames, rfl, .inl ⟨hclose, ?_⟩⟩⟩
        rw [assemble, heffect]
      · refine ⟨[], pending, .nil, .inr ⟨frame, frames, rfl, .inr (.inl ⟨hcont, hnone, ?_⟩)⟩⟩
        rw [assemble, heffect]
      · refine ⟨[], pending, .nil, .inr ⟨frame, frames, rfl, .inr (.inr ⟨message, hdata, hfin, heffect, ?_⟩)⟩⟩
        rw [assemble, heffect]

/-! ### What is assembled is a message of the grammar -/

/-- Frames that follow do not undo an interruption. -/
theorem Interrupted.append {frames : List WsFrame} (h : Interrupted frames) (others : List WsFrame) :
    Interrupted (frames ++ others) := by
  obtain ⟨before, frame, after, rfl, hclose, hopen, htype⟩ := h
  exact ⟨before, frame, after ++ others, by simp, hclose, hopen, htype⟩

/-- What is open behind some frames is open behind them, too, when a message was open before. -/
theorem openAfter_mono (frames : List WsFrame) {before before' : Bool} (h : before = true → before' = true)
    (hopen : openAfter before frames = true) : openAfter before' frames = true := by
  induction frames generalizing before before' with
  | nil => exact h hopen
  | cons frame frames ih =>
      rw [openAfter, List.foldl_cons] at hopen ⊢
      refine ih (fun hafter => ?_) hopen
      rw [isOpenAfter] at hafter ⊢
      cases hopcode : frame.opcode with
      | cont =>
          rw [hopcode] at hafter
          simp only [Bool.and_eq_true] at hafter ⊢
          exact ⟨h hafter.1, hafter.2⟩
      | text =>
          rw [hopcode] at hafter
          exact hafter
      | binary =>
          rw [hopcode] at hafter
          exact hafter
      | close =>
          rw [hopcode] at hafter
          exact h hafter
      | ping =>
          rw [hopcode] at hafter
          exact h hafter
      | pong =>
          rw [hopcode] at hafter
          exact h hafter

/-- Frames that come before and do not close do not undo an interruption. -/
theorem Interrupted.prepend {frames : List WsFrame} (h : Interrupted frames) {earlier : List WsFrame}
    (hclose : ∀ other ∈ earlier, other.opcode ≠ .close) : Interrupted (earlier ++ frames) := by
  obtain ⟨before, frame, after, rfl, hbefore, hopen, htype⟩ := h
  refine ⟨earlier ++ before, frame, after, (List.append_assoc ..).symm, ?_, ?_, htype⟩
  · intro other hother
    rcases List.mem_append.mp hother with hother | hother
    · exact hclose other hother
    · exact hbefore other hother
  · rw [openAfter, List.foldl_append]
    refine openAfter_mono before ?_ hopen
    intro hfalse
    cases hfalse

/-- Fragments that begin a message: its opcode first, continuation frames behind it, and no FIN. -/
structure Unfinished (message : Gathered) (fragments : List WsFrame) : Prop where
  type : message.opcode = .text ∨ message.opcode = .binary
  opcodes : ∃ conts : Nat,
    fragments.map WsFrame.opcode = message.opcode :: List.replicate conts .cont
  fins : ∀ fragment ∈ fragments, fragment.fin = false
  payloads : (fragments.map WsFrame.payload).flatten = message.data

/-- The fragments of the message under assembly. -/
def FragmentsOf (pending : Option Gathered) (fragments : List WsFrame) : Prop :=
  match pending with
  | none => fragments = []
  | some message => Unfinished message fragments

/-- A further fragment that does not interrupt the message. -/
theorem FragmentsOf.concat {pending : Option Gathered} {fragments : List WsFrame} {frame : WsFrame}
    {opcode : Opcode} (h : FragmentsOf pending fragments)
    (hopcode : (frame.opcode = .cont ∧ pending.map Gathered.opcode = some opcode) ∨
      (frame.opcode = opcode ∧ (opcode = .text ∨ opcode = .binary)))
    (huninterrupted : pending.isSome = true → frame.opcode = .cont) :
    (opcode = .text ∨ opcode = .binary) ∧
      (∃ conts : Nat, (fragments ++ [frame]).map WsFrame.opcode = opcode :: List.replicate conts .cont) ∧
      ((fragments ++ [frame]).map WsFrame.payload).flatten =
        WsFrame.gatheredData pending ++ frame.payload := by
  cases pending with
  | none =>
      rw [FragmentsOf] at h
      rw [h]
      rcases hopcode with ⟨_, hpending⟩ | ⟨hown, htype⟩
      · cases hpending
      · refine ⟨htype, ⟨0, by simp [hown]⟩, by simp [WsFrame.gatheredData]⟩
  | some message =>
      have hcont := huninterrupted rfl
      have hsame : message.opcode = opcode := by
        rcases hopcode with ⟨_, hpending⟩ | ⟨hown, htype⟩
        · exact Option.some.inj hpending
        · rw [← hown, hcont] at htype
          rcases htype with htype | htype
          · cases htype
          · cases htype
      obtain ⟨conts, hopcodes⟩ := h.opcodes
      refine ⟨hsame ▸ h.type, ⟨conts + 1, ?_⟩, ?_⟩
      · rw [List.map_append, hopcodes, List.replicate_succ', hsame]
        simp [hcont]
      · rw [List.map_append, List.flatten_append, h.payloads]
        simp [WsFrame.gatheredData]

/-- A data frame that does not interrupt the message under assembly continues it. -/
theorem Passes.cont_of_uninterrupted {pending : Option Gathered} {passed : List WireFrame}
    {frame : WsFrame} {opcode : Opcode} (h : Passes none passed pending)
    (hopcode : (frame.opcode = .cont ∧ pending.map Gathered.opcode = some opcode) ∨
      (frame.opcode = opcode ∧ (opcode = .text ∨ opcode = .binary)))
    (huninterrupted : ¬ Interrupted (passed.map WireFrame.content ++ [frame]))
    (hsome : pending.isSome = true) : frame.opcode = .cont := by
  rcases hopcode with ⟨hcont, _⟩ | ⟨hown, htype⟩
  · exact hcont
  · exact absurd ⟨_, _, [], rfl, h.noClose, h.openAfter.trans hsome, hown ▸ htype⟩ huninterrupted

/-- Uninterrupted frames leave the fragments of one message under assembly. -/
theorem fragments_of_passes {pending : Option Gathered} {frames : List WireFrame}
    (h : Passes none frames pending) (huninterrupted : ¬ Interrupted (frames.map WireFrame.content)) :
    FragmentsOf pending ((frames.map WireFrame.content).filter WsFrame.isData) := by
  induction frames using List.reverseRecOn generalizing pending with
  | nil =>
      cases h
      rfl
  | append_singleton frames frame ih =>
      obtain ⟨between, hfrom, hto⟩ := h.of_append
      rw [List.map_append, List.map_singleton] at huninterrupted ⊢
      have hfragments := ih hfrom fun hbefore => huninterrupted (hbefore.append _)
      cases hto with
      | cons honward hrest =>
          cases hrest
          by_cases hdata : frame.content.isData = true
          · obtain ⟨opcode, rfl, hfin, hopcode⟩ := honward.data hdata
            obtain ⟨htype, hopcodes, hpayloads⟩ :=
              hfragments.concat hopcode (hfrom.cont_of_uninterrupted hopcode huninterrupted)
            rw [List.filter_append, List.filter_cons_of_pos hdata, List.filter_nil]
            refine ⟨htype, hopcodes, ?_, hpayloads⟩
            intro fragment hfragment
            rcases List.mem_append.mp hfragment with hbefore | hlast
            · cases between with
              | none =>
                  rw [FragmentsOf] at hfragments
                  rw [hfragments] at hbefore
                  cases hbefore
              | some message => exact hfragments.fins fragment hbefore
            · rw [List.mem_singleton.mp hlast]
              exact hfin
          · rw [List.filter_append, List.filter_cons_of_neg hdata, List.filter_nil, List.append_nil]
            cases honward with
            | control _ => exact hfragments
            | more hdata' _ => exact absurd hdata' hdata

/-- The frame that ends an uninterrupted message completes a fragmentation of it. -/
theorem fragmentation_of_complete {pending : Option Gathered} {passed : List WireFrame}
    {last : WireFrame} {message : WsMessage} (h : Passes none passed pending)
    (hdata : last.content.isData = true) (hfin : last.content.fin = true)
    (heffect : last.content.effect pending = .complete message.gathered)
    (huninterrupted : ¬ Interrupted ((passed ++ [last]).map WireFrame.content)) :
    IsFragmentation message (((passed ++ [last]).map WireFrame.content).filter WsFrame.isData) := by
  rw [List.map_append, List.map_singleton] at huninterrupted ⊢
  have hfragments := fragments_of_passes h fun hbefore => huninterrupted (hbefore.append _)
  rcases WsFrame.effect_data hdata pending with ⟨horphan, _, _⟩ | ⟨opcode, hextend, hopcode⟩
  · rw [heffect] at horphan
    cases horphan
  · rw [heffect, WsFrame.extend, if_pos hfin, FrameEffect.complete.injEq] at hextend
    obtain ⟨_, hopcodes, hpayloads⟩ :=
      hfragments.concat hopcode (h.cont_of_uninterrupted hopcode huninterrupted)
    rw [List.filter_append, List.filter_cons_of_pos hdata, List.filter_nil]
    refine ⟨?_, ?_, ?_⟩
    · rw [hextend]
      exact hopcodes
    · refine ⟨((passed.map WireFrame.content).filter WsFrame.isData).length, ?_⟩
      rw [List.map_append, List.map_singleton, hfin, List.append_left_inj]
      apply List.eq_replicate_iff.mpr
      refine ⟨List.length_map _, ?_⟩
      intro fin hmem
      obtain ⟨fragment, hfragment, rfl⟩ := List.mem_map.mp hmem
      cases pending with
      | none =>
          rw [FragmentsOf] at hfragments
          rw [hfragments] at hfragment
          cases hfragment
      | some begun => exact hfragments.fins fragment hfragment
    · rw [hextend]
      exact hpayloads

/-! ### Frames that carry messages are assembled into them -/

section Fragments

variable {message : WsMessage} {begun left : List WsFrame} {fragment : WsFrame}

/-- The type of a fragment: that of the message for the first, a continuation for the others. -/
theorem IsFragmentation.opcode (h : IsFragmentation message (begun ++ fragment :: left)) :
    fragment.opcode = if begun = [] then message.gathered.opcode else .cont := by
  obtain ⟨conts, hopcodes⟩ := h.opcodes
  cases begun with
  | nil =>
      rw [List.nil_append, List.map_cons, List.cons.injEq] at hopcodes
      exact hopcodes.1
  | cons first begun =>
      rw [List.cons_append, List.map_cons, List.cons.injEq] at hopcodes
      rw [if_neg (List.cons_ne_nil _ _)]
      apply List.eq_of_mem_replicate (n := conts)
      rw [← hopcodes.2]
      exact List.mem_map_of_mem (by simp)

/-- The last fragment has FIN set, and no other one. -/
theorem IsFragmentation.fin (h : IsFragmentation message (begun ++ fragment :: left)) :
    fragment.fin = decide (left = []) := by
  obtain ⟨unfinished, hfins⟩ := h.fins
  rcases List.eq_nil_or_concat left with rfl | ⟨between, last, rfl⟩
  · rw [List.map_append, List.map_singleton] at hfins
    have hlast := (List.append_inj' hfins rfl).2
    rw [List.cons.inj hlast |>.1]
    rfl
  · rw [List.concat_eq_append, ← List.cons_append, ← List.append_assoc, List.map_append,
      List.map_singleton] at hfins
    have hfirst := (List.append_inj' hfins rfl).1
    rw [decide_eq_false (by simp)]
    apply List.eq_of_mem_replicate (n := unfinished)
    rw [← hfirst]
    exact List.mem_map_of_mem (by simp)

/-- What is under assembly behind the first fragments of a message. -/
def pendingOf (message : WsMessage) (begun : List WsFrame) : Option Gathered :=
  if begun = [] then none
  else some { opcode := message.gathered.opcode, data := (begun.map WsFrame.payload).flatten }

/-- The next fragment extends the message, or completes it. -/
theorem IsFragmentation.effect (h : IsFragmentation message (begun ++ fragment :: left)) :
    fragment.effect (pendingOf message begun) =
      if left = [] then .complete message.gathered
      else .more { opcode := message.gathered.opcode,
                   data := ((begun ++ [fragment]).map WsFrame.payload).flatten } := by
  have hextend : fragment.effect (pendingOf message begun) = fragment.extend message.gathered.opcode
      (begun.map WsFrame.payload).flatten := by
    have hopcode := h.opcode
    rw [WsFrame.effect.eq_def, pendingOf]
    by_cases hfirst : begun = []
    · rw [if_pos hfirst] at hopcode ⊢
      rw [hopcode, hfirst]
      cases message with
      | text content => rfl
      | binary data => rfl
    · rw [if_neg hfirst] at hopcode ⊢
      rw [hopcode]
  have hpayloads := h.payloads
  rw [hextend, WsFrame.extend, h.fin]
  by_cases hlast : left = []
  · rw [hlast] at hpayloads
    rw [if_pos hlast, if_pos (decide_eq_true hlast)]
    rw [List.map_append, List.flatten_append] at hpayloads
    have hdata : (begun.map WsFrame.payload).flatten ++ fragment.payload = message.gathered.data := by
      rw [← hpayloads]
      simp
    rw [hdata]
  · rw [if_neg hlast, if_neg (by simp [hlast])]
    simp

end Fragments

/-- Frames whose data frames begin with what is left of a message complete that message. -/
theorem assemble_message (frames : List WireFrame) {message : WsMessage} {begun left later : List WsFrame}
    (hmessage : IsFragmentation message (begun ++ left)) (hleft : left ≠ [])
    (hdata : (frames.map WireFrame.content).filter WsFrame.isData = left ++ later)
    (hclose : ∀ frame ∈ frames.map WireFrame.content, frame.opcode ≠ .close) :
    ∃ read unread, frames = read ++ unread ∧
      assemble (pendingOf message begun) frames = (.message message.gathered, unread) ∧
      (unread.map WireFrame.content).filter WsFrame.isData = later := by
  induction frames generalizing begun left with
  | nil =>
      have := List.append_eq_nil_iff.mp hdata.symm
      exact absurd this.1 hleft
  | cons frame frames ih =>
      have hclose' : ∀ other ∈ frames.map WireFrame.content, other.opcode ≠ .close := fun other hother =>
        hclose other (List.mem_cons_of_mem _ hother)
      rw [List.map_cons] at hdata
      by_cases hframe : frame.content.isData = true
      · rw [List.filter_cons_of_pos hframe] at hdata
        obtain ⟨fragment, left, rfl⟩ := List.exists_cons_of_ne_nil hleft
        rw [List.cons_append, List.cons.injEq] at hdata
        obtain ⟨rfl, hdata⟩ := hdata
        have heffect := hmessage.effect
        by_cases hlast : left = []
        · rw [if_pos hlast] at heffect
          rw [hlast] at hdata
          refine ⟨[frame], frames, rfl, ?_, hdata⟩
          rw [assemble, heffect]
        · rw [if_neg hlast] at heffect
          have hmessage' : IsFragmentation message ((begun ++ [frame.content]) ++ left) := by
            rw [List.append_assoc]
            exact hmessage
          obtain ⟨read, unread, rfl, hassemble, hlater⟩ := ih hmessage' hlast hdata hclose'
          refine ⟨frame :: read, unread, rfl, ?_, hlater⟩
          rw [assemble, heffect]
          rw [pendingOf, if_neg (by simp)] at hassemble
          exact hassemble
      · rw [List.filter_cons_of_neg hframe] at hdata
        obtain ⟨read, unread, rfl, hassemble, hlater⟩ := ih hmessage hleft hdata hclose'
        refine ⟨frame :: read, unread, rfl, ?_, hlater⟩
        rcases WsFrame.control_cases hframe with hopcode | hopcode
        · exact absurd hopcode (hclose _ List.mem_cons_self)
        · rw [(Onward.control hopcode).assemble]
          exact hassemble

/-- Frames that carry a message and others complete it and carry the others. -/
theorem assemble_carries {frames : List WireFrame} {message : WsMessage} {messages : List WsMessage}
    (h : Carries (frames.map WireFrame.content) (message :: messages)) :
    ∃ read unread, frames = read ++ unread ∧
      assemble none frames = (.message message.gathered, unread) ∧
      Carries (unread.map WireFrame.content) messages := by
  obtain ⟨parts, hparts, hdata⟩ := h.fragments
  cases hparts with
  | cons hmessage hmessages =>
      rename_i part parts
      have hpart : part ≠ [] := by
        rintro rfl
        obtain ⟨conts, hopcodes⟩ := hmessage.opcodes
        cases hopcodes
      rw [List.flatten_cons] at hdata
      have hwhole : IsFragmentation message ([] ++ part) := hmessage
      obtain ⟨read, unread, rfl, hassemble, hlater⟩ :=
        assemble_message frames hwhole hpart hdata h.noClose
      refine ⟨read, unread, rfl, hassemble, ⟨parts, hmessages, hlater⟩, ?_⟩
      intro frame hframe
      apply h.noClose
      rw [List.map_append]
      exact List.mem_append_right _ hframe

end Priestly
