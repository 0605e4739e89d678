import Violet.Tun2Http.ProxyRuns

/-!
# The limit of sessions

When as many sessions have been counted as are allowed, none is opened until they are counted again.
If DNS queries are not forwarded, sessions for these are not limited.
-/

namespace Violet.Tun2Http

open Transition Wire

/-- A flow of DNS queries. -/
def Flow.isDns : Flow → Bool
  | .udp _ _ _ _ dest => dest = 53
  | .icmp .. | .tcp .. => false

/-- A session that is opened only if there are not too many. -/
def NgSession.limited (args : Arguments) (s : NgSession) : Bool := args.fwd53 || !s.flow.isDns

namespace Proxy

variable {args : Arguments} {p p' : Proxy} {sc : Bool}

/-- No session is entered that is limited. -/
structure Limited (args : Arguments) (p p' : Proxy) : Prop where
  le : p'.sessions.countP (NgSession.limited args) ≤
    p.sessions.countP (NgSession.limited args)
  count : p'.count = p.count

lemma limited_of_proceeds {s s' : NgSession} (h : s.Proceeds s') :
    s'.limited args = s.limited args := by
  have hdns : s'.flow.isDns = s.flow.isDns := by
    cases h with
    | icmp | tcp => rfl
    | @udp u u' h =>
      have hdest := h.keeps (I := fun u' => u'.dest = u.dest)
        (fun _ _ hdoes hI => hdoes.dest_eq.trans hI) rfl
      simp [NgSession.flow, UdpSession.flow, Flow.isDns, hdest]
  rw [NgSession.limited, NgSession.limited, hdns]

lemma limited_of_follows {sessions sessions' : List NgSession}
    (h : List.SublistForall₂ (Follows (NgSession.Next sc)) sessions' sessions) :
    sessions'.countP (NgSession.limited args) ≤ sessions.countP (NgSession.limited args) := by
  refine countP_of_sublistForall₂ h fun t t' ht => ?_
  rcases ht with rfl | hnext
  · rfl
  · exact limited_of_proceeds hnext.proceeds

section

variable {i : ℕ} {f : NgSession → Option NgSession}

lemma limited_update (sc : Bool) (hp : p.Sound)
    (hf : ∀ s s' : NgSession, p.sessions[i]? = some s → s.HoldsSocket → f s = some s' →
      s.Moves sc (s', false))
    (h : p.update i f = some p') : p.Limited args p' := by
  refine ⟨limited_of_follows (follows_update hp hf h), ?_⟩
  obtain ⟨s, s', -, -, rfl⟩ := exists_of_update h
  rfl

lemma limited_through (sc : Bool) {f : ℕ → NgSession → NgSession × Bool} (hp : p.Sound)
    (hf : ∀ i (s : NgSession), s.HoldsSocket → s.Moves sc (f i s)) :
    p.Limited args (p.through f) :=
  ⟨limited_of_follows (follows_pass hp.sessions hf), rfl⟩

end

section

variable {d : Datagram} {beyond : ℕ → Byte} {a : PacketAnswers} {o : OpenAnswers}

lemma limited_found {i : ℕ} (hp : p.Sound) (hd : d.Sized) (hfind : p.findSession d.flow = some i)
    (h : p.update i (NgSession.handle sc d beyond a) = some p') : p.Limited args p' :=
  limited_update sc hp (fun _ _ hs hholds =>
    NgSession.moves_handle hholds (flow_of_findSession hfind hs) hd) h

/-- A session for DNS queries is not limited. -/
lemma limited_registerAndHandle {opened : Opened} {new : ℕ → NgSession} (hp : p.Sound)
    (hfile : ∀ file, opened = .leaked file ∨ opened = .opened file → file ∉ openFiles p.files)
    (hsocket : ∀ file, (new file).socket = some file) (hholds : ∀ file, (new file).HoldsSocket)
    (hbegins : ∀ file s, (new file).handle sc d beyond a = some s → (new file).Begins)
    (hflow : ∀ file, (new file).flow = d.flow)
    (hd : d.Sized) (hfind : p.findSession d.flow = none)
    (hdns : ∀ file, (new file).limited args = false)
    (h : p.registerAndHandle opened new (NgSession.handle sc d beyond a) = some p') :
    p.Limited args p' := by
  obtain ⟨hregister, -⟩ :=
    evolves_registerAndHandle hp hfile hsocket hholds hbegins hflow hd hfind h
  cases opened with
  | failed | leaked =>
    cases h
    exact ⟨le_rfl, rfl⟩
  | opened file =>
    have hupdate : (p.register (.opened file) new).Limited args p' := by
      refine limited_update sc hregister.sound (fun s s' hs hold hs' => ?_) h
      cases hs
      exact NgSession.moves_handle hold (hflow file) hd hs'
    refine ⟨hupdate.le.trans (le_of_eq ?_), hupdate.count⟩
    exact List.countP_cons_of_neg (by simp [hdns])

/-- A packet when there are as many sessions as are allowed. -/
lemma limited_handleDatagram (hp : p.Sound) (hd : d.Sized)
    (hfile : ∀ file, o.opened = .leaked file ∨ o.opened = .opened file → file ∉ openFiles p.files)
    (hdropped : p.dropped args d = false) (h : p.handleDatagram args d beyond a o = some p') :
    p.Limited args p' := by
  cases d with
  | icmp => cases hdropped
  | udp packet =>
    rw [handleDatagram, handleUdp] at h
    cases hfind : p.findSession packet.flow with
    | some i =>
      simp only [hfind] at h
      exact limited_found (d := .udp packet) hp hd hfind h
    | none =>
      obtain ⟨hdest, hfwd⟩ : packet.dest = 53 ∧ args.fwd53 = false := by
        simpa [dropped, hasUdpSession, hfind] using hdropped
      simp only [hfind] at h
      exact limited_registerAndHandle (d := .udp packet) hp hfile (fun _ => rfl)
        (fun file => by simp [NgSession.HoldsSocket, Udp.HoldsSocket, Udp.new])
        (fun file _ _ => .udp packet a.now file) (fun _ => rfl)
        (fun _ _ _ _ _ _ heq => Datagram.noConfusion heq) hfind
        (fun file => by simp [NgSession.limited, hfwd, hdest, NgSession.flow, UdpSession.flow,
          Udp.new, Flow.isDns]) h
  | tcp packet options =>
    have hsyn : packet.syn = false := hdropped
    rw [handleDatagram, handleTcp] at h
    cases hfind : p.findSession packet.flow with
    | some i =>
      simp only [hfind] at h
      exact limited_found (d := .tcp packet options) hp hd hfind h
    | none =>
      simp only [hfind, hsyn, Bool.false_eq_true, if_false] at h
      split_ifs at h
      all_goals
        cases h
        exact ⟨le_rfl, rfl⟩

end

lemma limited_step {e : ProxyEvent} (hp : p.Sound) (hguard : p.Admits e)
    (hfull : args.maxsessions ≤ p.count) (hcount : ∀ answers, e ≠ .count answers)
    (h : p.step args e = some p') : p.Limited args p' := by
  cases e with
  | packet pkt beyond a o =>
    obtain ⟨hlen, hfile⟩ := hguard
    obtain ⟨found, hread, h⟩ := Option.bind_eq_some_iff.mp h
    cases found with
    | none =>
      cases h
      exact ⟨le_rfl, rfl⟩
    | some d =>
      dsimp only at h
      split_ifs at h with hdropped
      · cases h
        exact ⟨le_rfl, rfl⟩
      · have hnot : p.dropped args d = false := by
          simpa [hfull] using hdropped
        exact limited_handleDatagram hp (sized_of_readPacket hlen hread) hfile hnot h
  | socket i ev a =>
    refine limited_update args.signedChar hp (fun s s' hs hold hs' => ?_) h
    obtain ⟨hsocket, hrecv⟩ := hguard s hs
    exact NgSession.moves_checkSocket hold hsocket hrecv hs'
  | count answers => exact absurd rfl (hcount answers)
  | check answers =>
    cases h
    exact limited_through args.signedChar hp fun _ _ hs => NgSession.moves_checkSession hs
  | allowed writeOk =>
    cases h
    exact limited_through args.signedChar hp fun _ _ hs => NgSession.moves_terminate hs
  | clear =>
    cases h
    exact ⟨Nat.zero_le _, rfl⟩

/-- The proxy with one session, when there may be no more. -/
def crowded : Proxy := { asking with count := 1 }

lemma reaches_crowded : Reaches (step ⟨true, false, 1⟩) Admits {} crowded := by
  have hcount : Admits asking (.count fun _ => ⟨0, ⟨0, 0⟩, true, true⟩) := trivial
  exact .tail (.tail .refl admits_timeEvent (step_timeEvent (by decide))) hcount rfl

/-- A packet from another port. -/
def otherPacket : List Byte :=
  [0x45, 0, 0, 30, 0, 0, 0, 0, 64, 17, 0, 0, 10, 0, 0, 1, 10, 0, 0, 2,
    0x9c, 0x41, 0, 123, 0, 10, 0, 0, 7, 7]

/-- When as many sessions have been counted as are allowed, their number does not grow until they
are counted again. -/
theorem full_table (h₀ : Reaches (step args) Admits {} p)
    (hfull : args.maxsessions ≤ p.count)
    (h : Reaches (step args) (fun p e => p.Admits e ∧ ∀ answers, e ≠ .count answers) p p') :
    p'.sessions.countP (NgSession.limited args) ≤ p.sessions.countP (NgSession.limited args) := by
  have hinv := h.invariant (P := fun p' => Evolves args.signedChar {} p' ∧ p.Limited args p')
    ⟨evolves_of_reaches h₀, le_rfl, rfl⟩ fun q e q' hI hguard hstep => by
      obtain ⟨hevolves, hholds⟩ := hI
      have hnext := limited_step hevolves.sound hguard.1 (hholds.count ▸ hfull) hguard.2 hstep
      exact ⟨hevolves.trans fun hsound => evolves_step hsound hguard.1 hstep,
        hnext.le.trans hholds.le, hnext.count.trans hholds.count⟩
  exact hinv.2.le

theorem full_table_crowded :
    (crowded.checkSessions ⟨true, false, 1⟩ fun _ => (5, true)).sessions.countP
        (NgSession.limited ⟨true, false, 1⟩) ≤
      crowded.sessions.countP (NgSession.limited ⟨true, false, 1⟩) := by
  have hread : readPacket otherPacket (fun _ => 0) =
      some (some (.udp { timeQuery with source := 40001 })) := rfl
  have hdropped : step ⟨true, false, 1⟩ crowded
      (.packet otherPacket (fun _ => 0) ⟨0, .sent, true, true⟩ ⟨.failed, 0, ⟨0, 0⟩⟩) =
        some crowded := by
    rw [step, handleIp, hread]
    rfl
  have hpacket : Admits crowded
      (.packet otherPacket (fun _ => 0) ⟨0, .sent, true, true⟩ ⟨.failed, 0, ⟨0, 0⟩⟩) :=
    ⟨by decide, fun file hfile => by simp at hfile⟩
  have hcheck : Admits crowded (.check fun _ => (5, true)) := trivial
  exact full_table reaches_crowded (by decide)
    (.tail (.tail .refl ⟨hpacket, by simp⟩ hdropped) ⟨hcheck, by simp⟩ rfl)

end Proxy

end Violet.Tun2Http
