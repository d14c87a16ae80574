/-
Module: Priestly.Proofs.Agreement
Layer: Proofs
Purpose: Agreement of the handshake under an attacker who owns the wire. A confirmation determines the
  shared secret, the commitment, the role and the element it was computed from, so a session that
  accepts one has an honest partner of the other role that computed the same.
Imports: Priestly.Protocol.Network, Priestly.Proofs.DriverRuns, Priestly.Python.SampleRuntime,
  Priestly.Proofs.PasswordBinding
Trusted boundary: collision freedom of the MAC on the confirmations of the sessions, and the origin of
  accepted confirmations, are assumptions
Main exports: confirmMac_inj, Party.Confirms, onWire_cases, accepts_onWire, covenant_agreement
-/
import Priestly.Protocol.Network
import Priestly.Proofs.DriverRuns
import Priestly.Proofs.PasswordBinding

namespace Priestly

open ByteCodec Interaction

section

variable {rt : Runtime} {grp : ModpGroup}

/-! ### What a confirmation binds -/

private theorem length_role {role : Bytes} (h : role = clientRole ∨ role = serverRole) :
    role.length = 6 := by
  rcases h with rfl | rfl
  · decide
  · decide

theorem clientRole_ne_serverRole : clientRole ≠ serverRole := by decide

/-- With commitments of one length, a confirmation binds the shared secret, the commitment, the role
and the element. -/
theorem confirmMac_inj {inputs : Set (Bytes × Bytes)} (hmac : CollisionFree rt.hmac inputs)
    {shared shared' x x' : grp.Element} {commit commit' role role' : Bytes}
    (hinput : confirmInput grp shared commit role x ∈ inputs)
    (hinput' : confirmInput grp shared' commit' role' x' ∈ inputs) (hlength : commit.length = commit'.length)
    (hrole : role = clientRole ∨ role = serverRole) (hrole' : role' = clientRole ∨ role' = serverRole)
    (h : hexString (confirmMac grp rt.hmac shared commit role x) =
      hexString (confirmMac grp rt.hmac shared' commit' role' x')) :
    shared = shared' ∧ commit = commit' ∧ role = role' ∧ x = x' := by
  obtain ⟨hkey, hmessage⟩ := Prod.mk.inj (hmac hinput hinput' (hexString_injective h))
  simp only [List.append_assoc] at hmessage
  obtain ⟨hcommit, hrest⟩ := List.append_inj hmessage hlength
  have hroles : role.length = role'.length := by rw [length_role hrole, length_role hrole']
  obtain ⟨hsame, helement⟩ := List.append_inj hrest hroles
  exact ⟨grp.toBytes_injective hkey, hcommit, hsame, grp.toBytes_injective helement⟩

/-! ### What sessions compute -/

variable (rt grp)

/-- A client session that has recovered the server's element `publicB` and with it computed the shared
secret. -/
def Party.ClientComputes (p : Party) (publicB shared : grp.Element) : Prop :=
  p.role = .client ∧ ∃ message rest, p.received = message :: rest ∧
    ReadsChallenge rt grp p.password message publicB ∧ shared = sharedSecret grp publicB p.exponent

/-- A server session that has read the commitment `commit` and the element `publicA` it commits to, and
with it computed the shared secret. -/
def Party.ServerComputes (p : Party) (commit : Bytes) (publicA shared : grp.Element) : Prop :=
  p.role = .server ∧ ∃ message message' rest confirmC, p.received = message :: message' :: rest ∧
    ReadsCommit rt message commit ∧ ReadsConfirm rt grp commit message' publicA confirmC ∧
    shared = sharedSecret grp publicA p.exponent

/-- The commitment of a client session. -/
def Party.commitment (p : Party) : Bytes := commitDigest grp (p.publicElement grp)

/-- The inputs of the MAC in the confirmations of a session: those of its own, and of the one it expects. -/
inductive Party.Confirms (p : Party) : Bytes × Bytes → Prop where
  | client {publicB shared : grp.Element} (computes : p.ClientComputes rt grp publicB shared) :
      p.Confirms (confirmInput grp shared (p.commitment grp) clientRole (p.publicElement grp))
  | expectedServer {publicB shared : grp.Element} (computes : p.ClientComputes rt grp publicB shared) :
      p.Confirms (confirmInput grp shared (p.commitment grp) serverRole publicB)
  | server {commit : Bytes} {publicA shared : grp.Element}
      (computes : p.ServerComputes rt grp commit publicA shared) :
      p.Confirms (confirmInput grp shared commit serverRole (p.publicElement grp))
  | expectedClient {commit : Bytes} {publicA shared : grp.Element}
      (computes : p.ServerComputes rt grp commit publicA shared) :
      p.Confirms (confirmInput grp shared commit clientRole publicA)

/-- Those of all sessions. -/
def Network.confirmed (net : Network) : Set (Bytes × Bytes) := {input | ∃ p ∈ net, p.Confirms rt grp input}

variable {rt grp}

/-- What a client session has on the wire as a confirmation was computed from its shared secret. -/
theorem client_sends {p : Party} (hrole : p.role = .client) {frame : Frame} {confirmation : String}
    (hsent : frame ∈ (p.trace rt grp).sent) (hconf : frame.confirmation? = some confirmation) :
    ∃ publicB shared, p.ClientComputes rt grp publicB shared ∧
      confirmation = hexString (confirmMac grp rt.hmac shared (p.commitment grp) clientRole
        (p.publicElement grp)) := by
  simp only [Party.trace, hrole] at hsent
  rcases (runClient_spec p.exponent p.password p.received).sent_cases hsent with
    rfl | ⟨message, rest, publicB, hreceived, hreads, rfl⟩
  · cases hconf
  · refine ⟨publicB, _, ⟨hrole, message, rest, hreceived, hreads, rfl⟩, ?_⟩
    exact (Option.some.inj hconf).symm

/-- What a server session has on the wire as a confirmation is the verdict it returned with. -/
theorem server_sends {p : Party} (hrole : p.role = .server) {frame : Frame} {confirmation : String}
    (hsent : frame ∈ (p.trace rt grp).sent) (hconf : frame.confirmation? = some confirmation) :
    ∃ commit publicA shared, p.ServerComputes rt grp commit publicA shared ∧
      frame = .authOk confirmation ∧
      (p.trace rt grp).outcome = .returned (sessionOf rt grp shared false) ∧
      confirmation = hexString (confirmMac grp rt.hmac shared commit serverRole
        (p.publicElement grp)) := by
  have htrace : p.trace rt grp = (runServer rt grp p.exponent p.password).runLive p.received := by
    simp only [Party.trace, hrole]
  rw [htrace] at hsent ⊢
  rcases (runServer_spec p.exponent p.password p.received).sent_cases hsent with
    rfl | ⟨reason, rfl⟩ |
      ⟨message, message', rest, commit, publicA, hreceived, hcommit, hconfirm, rfl, hreturn⟩
  · cases hconf
  · cases hconf
  · obtain rfl := Option.some.inj hconf
    exact ⟨commit, publicA, _, ⟨hrole, message, message', rest, _, hreceived, hcommit, hconfirm, rfl⟩,
      rfl, hreturn, rfl⟩

/-- Every confirmation on the wire was computed by an honest session from its own shared secret. -/
theorem onWire_cases {net : Network} {confirmation : String} (h : OnWire rt grp net confirmation) :
    (∃ p ∈ net, ∃ publicB shared, p.ClientComputes rt grp publicB shared ∧
      confirmation = hexString (confirmMac grp rt.hmac shared (p.commitment grp) clientRole
        (p.publicElement grp))) ∨
    (∃ p ∈ net, ∃ commit publicA shared, p.ServerComputes rt grp commit publicA shared ∧
      .authOk confirmation ∈ (p.trace rt grp).sent ∧
      (p.trace rt grp).outcome = .returned (sessionOf rt grp shared false) ∧
      confirmation = hexString (confirmMac grp rt.hmac shared commit serverRole
        (p.publicElement grp))) := by
  obtain ⟨p, hp, frame, hsent, hconf⟩ := h
  cases hrole : p.role with
  | client =>
      obtain ⟨publicB, shared, hcomputes, hsame⟩ := client_sends hrole hsent hconf
      exact .inl ⟨p, hp, publicB, shared, hcomputes, hsame⟩
  | server =>
      obtain ⟨commit, publicA, shared, hcomputes, rfl, hreturn, hsame⟩ :=
        server_sends hrole hsent hconf
      exact .inr ⟨p, hp, commit, publicA, shared, hcomputes, hsent, hreturn, hsame⟩

/-! ### Steps and runs -/

/-- A further message only extends what a session has sent, and never revises an end. -/
theorem trace_receive (rt : Runtime) (grp : ModpGroup) (p : Party) (message : WsMessage) :
    (∃ further, ((p.receive message).trace rt grp).sent = (p.trace rt grp).sent ++ further) ∧
      ((p.trace rt grp).outcome ≠ .waiting →
        (p.receive message).trace rt grp = p.trace rt grp) := by
  cases hrole : p.role with
  | client =>
      obtain ⟨further, hsent, hend⟩ :=
        (runClient rt grp p.exponent p.password).runLive_append p.received [message]
      simp only [Party.trace, Party.receive, hrole]
      exact ⟨⟨further, hsent⟩, hend⟩
  | server =>
      obtain ⟨further, hsent, hend⟩ :=
        (runServer rt grp p.exponent p.password).runLive_append p.received [message]
      simp only [Party.trace, Party.receive, hrole]
      exact ⟨⟨further, hsent⟩, hend⟩

/-- What is on the wire stays there. -/
theorem onWire_step {net net' : Network} (h : NetStep rt grp net net') {confirmation : String}
    (hwire : OnWire rt grp net confirmation) : OnWire rt grp net' confirmation := by
  obtain ⟨p, hp, frame, hsent, hconf⟩ := hwire
  cases h with
  | start q fresh => exact ⟨p, List.mem_append_left _ hp, frame, hsent, hconf⟩
  | deliver q message origin =>
      by_cases hsame : p = q
      · obtain ⟨⟨further, hfurther⟩, _⟩ := trace_receive rt grp q message
        refine ⟨q.receive message, by simp, frame, ?_, hconf⟩
        rw [hfurther, ← hsame]
        exact List.mem_append_left _ hsent
      · refine ⟨p, ?_, frame, hsent, hconf⟩
        simp only [List.mem_append, List.mem_cons] at hp ⊢
        rcases hp with hbefore | hq | hafter
        · exact .inl hbefore
        · exact absurd hq hsame
        · exact .inr (.inr hafter)

/-- Every accepted confirmation is on the wire. -/
def Sourced (rt : Runtime) (grp : ModpGroup) (net : Network) : Prop :=
  ∀ p ∈ net, ∀ confirmation, p.Accepts rt grp confirmation → OnWire rt grp net confirmation

/-- A session that has been handed nothing accepts nothing. -/
theorem not_accepts_fresh {p : Party} (h : p.received = []) (confirmation : String) :
    ¬ p.Accepts rt grp confirmation := by
  rintro ⟨_, message, message', rest, _, hreceived, _⟩
  rw [h] at hreceived
  cases hreceived

theorem sourced_step {net net' : Network} (h : NetStep rt grp net net') (hnet : Sourced rt grp net) :
    Sourced rt grp net' := by
  intro p hp confirmation haccepts
  have hstep := h
  cases h with
  | start q fresh =>
      rcases List.mem_append.mp hp with hold | hnew
      · exact onWire_step hstep (hnet p hold confirmation haccepts)
      · obtain rfl := List.mem_singleton.mp hnew
        exact absurd haccepts (not_accepts_fresh fresh confirmation)
  | deliver q message origin =>
      have hold : ∀ other : Party, other ∈ _ → other.Accepts rt grp confirmation →
          OnWire rt grp _ confirmation :=
        fun other hother haccepted => onWire_step hstep (hnet other hother confirmation haccepted)
      simp only [List.mem_append, List.mem_cons] at hp
      rcases hp with hbefore | rfl | hafter
      · exact hold p (by simp [hbefore]) haccepts
      · by_cases hbefore : q.Accepts rt grp confirmation
        · exact hold q (by simp) hbefore
        · exact onWire_step hstep (origin confirmation haccepts hbefore)
      · exact hold p (by simp [hafter]) haccepts

/-- In every network the attacker can reach, every accepted confirmation is on the wire. -/
theorem accepts_onWire {net : Network} (h : net.Reachable rt grp) : Sourced rt grp net := by
  induction h with
  | refl =>
      intro p hp
      cases hp
  | tail _ hstep ih => exact sourced_step hstep ih

/-! ### Agreement -/

theorem length_commitment (p : Party) : (p.commitment grp).length = 20 :=
  length_commitDigest grp _

theorem length_of_serverComputes {p : Party} {commit : Bytes} {publicA shared : grp.Element}
    (h : p.ServerComputes rt grp commit publicA shared) : commit.length = 20 := by
  obtain ⟨_, _, _, _, _, _, ⟨_, _, _, hlength⟩, _⟩ := h
  exact hlength

/-- A client session that returned has the keys of the secret it computed. -/
theorem client_session {p : Party} {publicB shared : grp.Element}
    (h : p.ClientComputes rt grp publicB shared) {session : SessionState}
    (hreturn : (p.trace rt grp).outcome = .returned session) :
    session = sessionOf rt grp shared true := by
  obtain ⟨hrole, message, rest, hreceived, hreads, rfl⟩ := h
  simp only [Party.trace, hrole] at hreturn
  obtain ⟨first, second, rest', publicB', hreceived', hreads', _, rfl⟩ :=
    (runClient_spec p.exponent p.password p.received).returned hreturn
  rw [hreceived] at hreceived'
  obtain ⟨rfl, _⟩ := List.cons.inj hreceived'
  rw [readsChallenge_unique hreads hreads']

/-- A server session that sent its verdict has an honest client session that computed the same secret
from the element revealed to the server. -/
theorem server_has_partner {net : Network} (hmac : CollisionFree rt.hmac (net.confirmed rt grp))
    (hnet : Sourced rt grp net) {p : Party} (hp : p ∈ net) (hrole : p.role = .server)
    {confirmS : String} (hsent : .authOk confirmS ∈ (p.trace rt grp).sent) :
    ∃ commit publicA shared, p.ServerComputes rt grp commit publicA shared ∧
      (p.trace rt grp).outcome = .returned (sessionOf rt grp shared false) ∧
      ∃ q ∈ net, ∃ publicB, q.ClientComputes rt grp publicB shared ∧
        q.commitment grp = commit ∧ q.publicElement grp = publicA := by
  have htrace : p.trace rt grp = (runServer rt grp p.exponent p.password).runLive p.received := by
    simp only [Party.trace, hrole]
  rw [htrace] at hsent
  rcases (runServer_spec p.exponent p.password p.received).sent_cases hsent with
    hchallenge | ⟨reason, hfail⟩ |
      ⟨message, message', rest, commit, publicA, hreceived, hcommit, hconfirm, _, hreturn⟩
  · cases hchallenge
  · cases hfail
  · rw [← htrace] at hreturn
    have hcomputes : p.ServerComputes rt grp commit publicA (sharedSecret grp publicA p.exponent) :=
      ⟨hrole, message, message', rest, _, hreceived, hcommit, hconfirm, rfl⟩
    refine ⟨commit, publicA, _, hcomputes, hreturn, ?_⟩
    -- The confirmation the server accepted is on the wire; the role rules out another server.
    have haccepts : p.Accepts rt grp (expectedConfirm rt grp p.exponent commit publicA) := by
      obtain ⟨text, hparse, _⟩ := hconfirm
      exact ⟨⟨_, hreturn⟩, message, message', rest, _, hreceived, hparse, rfl⟩
    have hlength := length_of_serverComputes hcomputes
    rcases onWire_cases (hnet p hp _ haccepts) with
      ⟨q, hq, publicB, shared, hq_computes, hsame⟩ |
        ⟨q, hq, commit', publicA', shared, hq_computes, _, _, hsame⟩
    · obtain ⟨rfl, hcommits, _, helement⟩ := confirmMac_inj hmac ⟨p, hp, .expectedClient hcomputes⟩
        ⟨q, hq, .client hq_computes⟩ (by rw [hlength, length_commitment]) (.inl rfl) (.inl rfl) hsame
      exact ⟨q, hq, publicB, hq_computes, hcommits.symm, helement.symm⟩
    · obtain ⟨_, _, hroles, _⟩ := confirmMac_inj hmac ⟨p, hp, .expectedClient hcomputes⟩
        ⟨q, hq, .server hq_computes⟩ (by rw [hlength, length_of_serverComputes hq_computes]) (.inl rfl)
        (.inr rfl) hsame
      exact absurd hroles clientRole_ne_serverRole

/-- A client session that returned has an honest server session that sent its verdict on the same
commitment and computed the same secret. -/
theorem client_has_partner {net : Network} (hmac : CollisionFree rt.hmac (net.confirmed rt grp))
    (hnet : Sourced rt grp net) {p : Party} (hp : p ∈ net) (hrole : p.role = .client)
    {session : SessionState} (hreturn : (p.trace rt grp).outcome = .returned session) :
    ∃ publicB shared, p.ClientComputes rt grp publicB shared ∧
      ∃ q ∈ net, ∃ publicA confirmS, q.ServerComputes rt grp (p.commitment grp) publicA shared ∧
        .authOk confirmS ∈ (q.trace rt grp).sent ∧
        (q.trace rt grp).outcome = .returned (sessionOf rt grp shared false) ∧
        q.publicElement grp = publicB := by
  have htrace : p.trace rt grp = (runClient rt grp p.exponent p.password).runLive p.received := by
    simp only [Party.trace, hrole]
  have hrun := hreturn
  rw [htrace] at hrun
  obtain ⟨message, message', rest, publicB, hreceived, hreads, hparse, _⟩ :=
    (runClient_spec p.exponent p.password p.received).returned hrun
  have hcomputes : p.ClientComputes rt grp publicB (sharedSecret grp publicB p.exponent) :=
    ⟨hrole, message, message' :: rest, hreceived, hreads, rfl⟩
  refine ⟨publicB, _, hcomputes, ?_⟩
  have haccepts : p.Accepts rt grp (hexString (confirmMac grp rt.hmac
      (sharedSecret grp publicB p.exponent) (p.commitment grp) serverRole publicB)) :=
    ⟨⟨session, hreturn⟩, message, message', rest, _, hreceived, hparse, rfl⟩
  -- The verdict the client accepted is on the wire; the role rules out another client.
  rcases onWire_cases (hnet p hp _ haccepts) with
    ⟨q, hq, publicB', shared, hq_computes, hsame⟩ |
      ⟨q, hq, commit, publicA, shared, hq_computes, hsent, hq_return, hsame⟩
  · obtain ⟨_, _, hroles, _⟩ := confirmMac_inj hmac ⟨p, hp, .expectedServer hcomputes⟩
      ⟨q, hq, .client hq_computes⟩ (by rw [length_commitment, length_commitment]) (.inr rfl) (.inl rfl) hsame
    exact absurd hroles.symm clientRole_ne_serverRole
  · obtain ⟨rfl, rfl, _, helement⟩ := confirmMac_inj hmac ⟨p, hp, .expectedServer hcomputes⟩
      ⟨q, hq, .server hq_computes⟩ (by rw [length_commitment, length_of_serverComputes hq_computes]) (.inr rfl)
      (.inr rfl) hsame
    exact ⟨q, hq, publicA, _, hq_computes, hsent, hq_return, helement.symm⟩

end

/-- Whenever a server session sends `AUTH_OK` on a commitment and a revealed element, an honest client
session with that commitment and that element computed the same shared secret; whenever a client
session returns, an honest server session that sent `AUTH_OK` has the same commitment, the same shared
secret and, as its own element, the one the client recovered. In both cases the two sessions derive the
same keys. The MAC must have no collisions among the confirmations that the sessions send or expect. -/
theorem covenant_agreement (rt : Runtime) (grp : ModpGroup) {net : Network}
    (hmac : CollisionFree rt.hmac (net.confirmed rt grp)) (hnet : net.Reachable rt grp) :
    (∀ p ∈ net, p.role = .server → ∀ confirmS, .authOk confirmS ∈ (p.trace rt grp).sent →
      ∃ commit publicA shared keys, p.ServerComputes rt grp commit publicA shared ∧
        deriveSessionKeys grp rt.hmac shared = .ok keys ∧
        (p.trace rt grp).outcome = .returned (.new keys false true) ∧
        ∃ q ∈ net, ∃ publicB, q.ClientComputes rt grp publicB shared ∧
          q.commitment grp = commit ∧ q.publicElement grp = publicA ∧
          ∀ session, (q.trace rt grp).outcome = .returned session → session = .new keys true true) ∧
    (∀ p ∈ net, p.role = .client → ∀ session, (p.trace rt grp).outcome = .returned session →
      ∃ publicB shared keys, p.ClientComputes rt grp publicB shared ∧
        deriveSessionKeys grp rt.hmac shared = .ok keys ∧ session = .new keys true true ∧
        ∃ q ∈ net, ∃ publicA confirmS,
          q.ServerComputes rt grp (p.commitment grp) publicA shared ∧
          .authOk confirmS ∈ (q.trace rt grp).sent ∧ q.publicElement grp = publicB ∧
          (q.trace rt grp).outcome = .returned (.new keys false true)) := by
  have hsourced := accepts_onWire hnet
  constructor
  · intro p hp hrole confirmS hsent
    obtain ⟨commit, publicA, shared, hcomputes, hreturn, q, hq, publicB, hpartner, hcommit, hA⟩ :=
      server_has_partner hmac hsourced hp hrole hsent
    refine ⟨commit, publicA, shared, sessionKeys grp rt.hmac shared, hcomputes,
      deriveSessionKeys_eq grp rt.hmac shared, hreturn, q, hq, publicB, hpartner, hcommit, hA, ?_⟩
    intro session hq_return
    exact client_session hpartner hq_return
  · intro p hp hrole session hreturn
    obtain ⟨publicB, shared, hcomputes, q, hq, publicA, confirmS, hpartner, hsent, hq_return, hB⟩ :=
      client_has_partner hmac hsourced hp hrole hreturn
    exact ⟨publicB, shared, sessionKeys grp rt.hmac shared, hcomputes,
      deriveSessionKeys_eq grp rt.hmac shared, client_session hcomputes hreturn, q, hq, publicA,
      confirmS, hpartner, hsent, hB, hq_return⟩

/-! ### An honest run -/

section Honest

variable {rt : Runtime} {grp : ModpGroup} {a b : Nat} {password : Bytes}

/-- A confirmation that reaches a session in a frame of an honest session was sent before. -/
theorem origin_of_honest {net : Network} {p q : Party} {message : WsMessage} {frame : Frame}
    (hq : q ∈ net) (hsent : frame ∈ (q.trace rt grp).sent)
    (hparse : parseMessage rt message = .ok frame) (hshort : p.received.length ≤ 1)
    (confirmation : String) (haccepts : (p.receive message).Accepts rt grp confirmation) :
    OnWire rt grp net confirmation := by
  obtain ⟨_, first, second, rest, other, hreceived, hother, hconf⟩ := haccepts
  have hsecond : second = message := by
    simp only [Party.receive] at hreceived
    cases hp : p.received with
    | nil =>
        rw [hp] at hreceived
        cases hreceived
    | cons head tail =>
        have htail : tail = [] := by
          rw [hp, List.length_cons] at hshort
          exact List.length_eq_zero_iff.mp (by omega)
        rw [hp, htail] at hreceived
        cases hreceived
        rfl
  rw [hsecond, hparse] at hother
  obtain rfl := Except.ok.inj hother
  exact ⟨q, hq, frame, hsent, hconf⟩

/-- The attacker may hand over a frame an honest session has sent. -/
theorem reachable_deliver {before after : Network} {p q : Party} {frame : Frame}
    (hnet : Network.Reachable rt grp (before ++ p :: after)) (hq : q ∈ before ++ p :: after)
    (hsent : frame ∈ (q.trace rt grp).sent) (hparse : parseMessage rt (wire rt frame) = .ok frame)
    (hshort : p.received.length ≤ 1) :
    Network.Reachable rt grp (before ++ p.receive (wire rt frame) :: after) :=
  hnet.tail (.deliver p _ fun confirmation haccepts _ =>
    origin_of_honest hq hsent hparse hshort confirmation haccepts)

/-- A client with what it has been handed. -/
def clientParty (a : Nat) (password : Bytes) (received : List WsMessage) : Party :=
  { role := .client, password, exponent := a, received }

/-- A server with what it has been handed. -/
def serverParty (b : Nat) (password : Bytes) (received : List WsMessage) : Party :=
  { role := .server, password, exponent := b, received }

@[simp] theorem trace_clientParty (received : List WsMessage) :
    (clientParty a password received).trace rt grp =
      (runClient rt grp a password).runLive received := rfl

@[simp] theorem trace_serverParty (received : List WsMessage) :
    (serverParty b password received).trace rt grp =
      (runServer rt grp b password).runLive received := rfl

/-- The server after an undisturbed handshake. -/
def honestServer (rt : Runtime) (grp : ModpGroup) (a b : Nat) (password : Bytes) : Party :=
  serverParty b password [wire rt (commitFrame grp a),
    wire rt (confirmFrame rt grp a (publicElement grp b))]

/-- The network after an undisturbed handshake. -/
def honestNetwork (rt : Runtime) (grp : ModpGroup) (a b : Nat) (password : Bytes) : Network :=
  [clientParty a password [wire rt (challengeFrame rt grp b password),
      wire rt (authOkFrame rt grp b (commitDigest grp (publicElement grp a)) (publicElement grp a))],
    honestServer rt grp a b password]

/-- The client recovers the server's element from the server's challenge. -/
theorem readsChallenge_wire (hP : grp.P.Prime)
    (hparse : parseMessage rt (wire rt (challengeFrame rt grp b password)) =
      .ok (challengeFrame rt grp b password))
    (hM : grp.InRange (mask grp (publicElement grp b) (secretToElement grp rt.hmac password))) :
    ReadsChallenge rt grp password (wire rt (challengeFrame rt grp b password))
      (publicElement grp b) := by
  have : Fact grp.P.Prime := ⟨hP⟩
  exact ⟨_, ⟨_, hparse, parseElement_elementHex hM⟩,
    unmask_mask _ (secretToElement_ne_zero grp rt.hmac password)⟩

/-- The verdict of the server is the one the client expects. -/
theorem authOkFrame_eq_expectedFrame (rt : Runtime) (grp : ModpGroup) (a b : Nat) :
    authOkFrame rt grp b (commitDigest grp (publicElement grp a)) (publicElement grp a) =
      expectedFrame rt grp a (publicElement grp b) := by
  rw [authOkFrame, expectedFrame, ← sharedSecret_comm]

/-- The attacker can let a handshake pass undisturbed, and then the server has sent its verdict. -/
theorem honestNetwork_reachable (hP : grp.P.Prime)
    (hwire : ∀ frame : Frame, frame.confirmation?.isSome ∨ frame = commitFrame grp a ∨
      frame = challengeFrame rt grp b password → parseMessage rt (wire rt frame) = .ok frame)
    (hA : grp.InRange (publicElement grp a))
    (hM : grp.InRange (mask grp (publicElement grp b) (secretToElement grp rt.hmac password))) :
    (honestNetwork rt grp a b password).Reachable rt grp ∧
      authOkFrame rt grp b (commitDigest grp (publicElement grp a)) (publicElement grp a) ∈
        ((honestServer rt grp a b password).trace rt grp).sent := by
  have : Fact grp.P.Prime := ⟨hP⟩
  have hcommit := hwire (commitFrame grp a) (.inr (.inl rfl))
  have hchallenge := hwire (challengeFrame rt grp b password) (.inr (.inr rfl))
  have hconfirm := hwire (confirmFrame rt grp a (publicElement grp b)) (.inl rfl)
  have hverdict := hwire (authOkFrame rt grp b (commitDigest grp (publicElement grp a))
    (publicElement grp a)) (.inl rfl)
  have hreads : ReadsCommit rt (wire rt (commitFrame grp a)) (commitDigest grp (publicElement grp a)) :=
    ⟨_, hcommit, by rw [toList_hexString, bytesFromHex_hexChars], length_commitDigest grp _⟩
  have hrecovers := readsChallenge_wire hP hchallenge hM
  have hreveals : ReadsConfirm rt grp (commitDigest grp (publicElement grp a))
      (wire rt (confirmFrame rt grp a (publicElement grp b))) (publicElement grp a)
      (expectedConfirm rt grp b (commitDigest grp (publicElement grp a)) (publicElement grp a)) := by
    refine ⟨elementHex grp (publicElement grp a), ?_, parseElement_elementHex hA, rfl⟩
    rw [expectedConfirm, ← sharedSecret_comm]
    exact hconfirm
  -- What each session has sent when the next frame is handed over.
  have hclient : commitFrame grp a ∈ ((clientParty a password []).trace rt grp).sent :=
    List.mem_singleton.mpr rfl
  have hserver : challengeFrame rt grp b password ∈
      ((serverParty b password [wire rt (commitFrame grp a)]).trace rt grp).sent := by
    rw [trace_serverParty, runServer_challenges hreads]
    exact List.mem_cons_self
  have hclient' : confirmFrame rt grp a (publicElement grp b) ∈
      ((clientParty a password [wire rt (challengeFrame rt grp b password)]).trace rt grp).sent := by
    obtain ⟨further, hsent⟩ := runClient_confirms (a := a) hrecovers []
    rw [trace_clientParty, hsent]
    simp
  have hserver' : authOkFrame rt grp b (commitDigest grp (publicElement grp a)) (publicElement grp a) ∈
      ((serverParty b password [wire rt (commitFrame grp a),
        wire rt (confirmFrame rt grp a (publicElement grp b))]).trace rt grp).sent := by
    rw [trace_serverParty, runServer_accepts hreads hreveals]
    simp
  refine ⟨?_, hserver'⟩
  -- Two starts, then the four frames in their order.
  have started : Network.Reachable rt grp [clientParty a password [], serverParty b password []] :=
    (Relation.ReflTransGen.refl.tail (.start (clientParty a password []) rfl)).tail
      (.start (serverParty b password []) rfl)
  have committed : Network.Reachable rt grp
      ([clientParty a password []] ++ (serverParty b password []).receive
        (wire rt (commitFrame grp a)) :: []) :=
    reachable_deliver started (q := clientParty a password []) (by simp) hclient hcommit
      (by simp [serverParty])
  have challenged : Network.Reachable rt grp
      ([] ++ (clientParty a password []).receive (wire rt (challengeFrame rt grp b password)) ::
        [serverParty b password [wire rt (commitFrame grp a)]]) :=
    reachable_deliver committed (q := serverParty b password [wire rt (commitFrame grp a)])
      (by simp [serverParty]) hserver hchallenge (by simp [clientParty])
  have confirmed : Network.Reachable rt grp
      ([clientParty a password [wire rt (challengeFrame rt grp b password)]] ++
        (serverParty b password [wire rt (commitFrame grp a)]).receive
          (wire rt (confirmFrame rt grp a (publicElement grp b))) :: []) :=
    reachable_deliver challenged
      (q := clientParty a password [wire rt (challengeFrame rt grp b password)])
      (by simp [clientParty]) hclient' hconfirm (by simp [serverParty])
  have answered : Network.Reachable rt grp
      ([] ++ (clientParty a password [wire rt (challengeFrame rt grp b password)]).receive
          (wire rt (authOkFrame rt grp b (commitDigest grp (publicElement grp a))
            (publicElement grp a))) ::
        [serverParty b password [wire rt (commitFrame grp a),
          wire rt (confirmFrame rt grp a (publicElement grp b))]]) :=
    reachable_deliver confirmed
      (q := serverParty b password [wire rt (commitFrame grp a),
        wire rt (confirmFrame rt grp a (publicElement grp b))])
      (by simp [serverParty]) hserver' hverdict (by simp [clientParty])
  exact answered

end Honest

/-- The inputs of the MAC in a handshake over the group modulo 23 with the exponents 3 and 4, whose
shared secret is 2. -/
def handshakeSamples : List (Bytes × Bytes) :=
  let key := group23.toBytes (group23.reduce 2)
  let commit := commitDigest group23 (publicElement group23 3)
  [(asciiBytes "alpha", mapLabel),
    (key, commit ++ clientRole ++ group23.toBytes (publicElement group23 3)),
    (key, commit ++ serverRole ++ group23.toBytes (publicElement group23 4)),
    (key, asciiBytes "Priestly-v1-client-write" ++ [1]),
    (key, asciiBytes "Priestly-v1-server-write" ++ [1]),
    (key, asciiBytes "Priestly-v1-client-mac" ++ [1]),
    (key, asciiBytes "Priestly-v1-server-mac" ++ [1])]

/-- The partner of the server of an undisturbed handshake. -/
theorem covenant_agreement_group23 :
    ∃ commit publicA shared,
      (honestServer (sampleRuntime (sampledMac handshakeSamples)) group23 3 4
        (asciiBytes "alpha")).ServerComputes (sampleRuntime (sampledMac handshakeSamples)) group23
          commit publicA shared ∧
      ∃ q ∈ honestNetwork (sampleRuntime (sampledMac handshakeSamples)) group23 3 4
          (asciiBytes "alpha"),
        ∃ publicB,
          q.ClientComputes (sampleRuntime (sampledMac handshakeSamples)) group23 publicB shared ∧
          q.commitment group23 = commit ∧ q.publicElement group23 = publicA := by
  have hdistinct : DistinctTags handshakeSamples := by decide +kernel
  have hwire : ∀ frame : Frame, frame.confirmation?.isSome ∨ frame = commitFrame group23 3 ∨
      frame = challengeFrame (sampleRuntime (sampledMac handshakeSamples)) group23 4
        (asciiBytes "alpha") →
      parseMessage (sampleRuntime (sampledMac handshakeSamples))
        (wire (sampleRuntime (sampledMac handshakeSamples)) frame) = .ok frame := by
    intro frame hframe
    apply loads_dumps_sample
    rcases hframe with hconf | rfl | rfl
    · cases frame with
      | covenantConfirm _ _ | authOk _ => rfl
      | _ => cases hconf
    · rfl
    · rfl
  obtain ⟨hreachable, hsent⟩ := honestNetwork_reachable (a := 3) (b := 4) (by decide) hwire
    (by decide +kernel) (by decide +kernel)
  obtain ⟨hserver, _⟩ := covenant_agreement (sampleRuntime (sampledMac handshakeSamples)) group23
    (collisionFree_sampledMac hdistinct _) hreachable
  obtain ⟨commit, publicA, shared, _, hcomputes, _, _, q, hq, publicB, hpartner, hcommit, hA, _⟩ :=
    hserver _ (by simp [honestNetwork]) rfl _ hsent
  exact ⟨commit, publicA, shared, hcomputes, q, hq, publicB, hpartner, hcommit, hA⟩

end Priestly
