import Violet.Tun2Http.ProxyRuns

/-!
# Sessions without traffic

The check of the sessions closes those that have had no traffic for their timeout, and removes those
that have been closed for a while. So if there is no traffic, the table becomes empty, and only
sockets that an `open` function has left behind are open.
-/

namespace Violet.Tun2Http

open Transition

section

variable {timeout now sessions maxsessions : ℤ} {ok : Bool}

/-! ### Timeouts -/

section

variable (hsessions : 0 ≤ sessions) (hmax : 0 < maxsessions)

include hsessions hmax

/-- Sessions that are in use make a timeout shorter. -/
lemma scaleTimeout_le (htimeout : 0 ≤ timeout) :
    scaleTimeout timeout sessions maxsessions ≤ timeout := by
  have hshare : 0 ≤ (sessions * 100).tdiv maxsessions :=
    Int.tdiv_nonneg (Int.mul_nonneg hsessions (by decide)) hmax.le
  calc scaleTimeout timeout sessions maxsessions
      ≤ (timeout * 100).tdiv 100 :=
        Int.tdiv_le_tdiv (by decide) (Int.mul_le_mul_of_nonneg_left (by omega) htimeout)
    _ = timeout := Int.mul_tdiv_cancel timeout (by decide)

lemma getTcpTimeout_le (t : TcpSession) :
    getTcpTimeout t sessions maxsessions ≤ TCP_IDLE_TIMEOUT := by
  rw [getTcpTimeout]
  split_ifs
  all_goals exact (scaleTimeout_le hsessions hmax (by decide)).trans (by decide)

lemma getUdpTimeout_le (u : UdpSession) :
    getUdpTimeout u sessions maxsessions ≤ TCP_IDLE_TIMEOUT := by
  rw [getUdpTimeout]
  split_ifs
  all_goals exact (scaleTimeout_le hsessions hmax (by decide)).trans (by decide)

end

/-! ### One session -/

lemma Conn.state_writeRst {c : Conn} (h : c.state ≠ .CLOSE) : (c.writeRst ok).state = .CLOSING := by
  rw [writeRst_eq]
  exact if_neg h

lemma Conn.closed_closeSocket {c : Conn}
    (h : c.state = .CLOSING ∨ c.state = .CLOSE ∧ c.time ≤ now) :
    (c.closeSocket now).state = .CLOSE ∧ (c.closeSocket now).time ≤ now := by
  rw [closeSocket]
  rcases h with h | ⟨h, htime⟩
  · rw [if_pos h]
    exact ⟨rfl, le_refl now⟩
  · rw [if_neg (by simp [h])]
    exact ⟨h, htime⟩

namespace NgSession

/-- When there was traffic last, or when the session was closed. -/
def time : NgSession → ℤ
  | icmp s => s.time
  | udp u => u.time
  | tcp c => c.time

/-- A session that has been closed by then. -/
inductive Rests (t : ℤ) : NgSession → Prop
  | udp (u : Udp) (hstate : u.state = .CLOSED ∨ u.state = .BLOCKED) (htime : u.time ≤ t) :
      Rests t (.udp u)
  | tcp (c : Conn) (hstate : c.state = .CLOSE) (htime : c.time ≤ t) : Rests t (.tcp c)

lemma Rests.mono {s : NgSession} {t t' : ℤ} (h : s.Rests t) (hle : t ≤ t') : s.Rests t' := by
  cases h with
  | udp u hstate htime => exact .udp u hstate (htime.trans hle)
  | tcp c hstate htime => exact .tcp c hstate (htime.trans hle)

lemma rests_checkUdpSession {u : Udp}
    (hidle : u.time + getUdpTimeout u.toUdpSession sessions maxsessions < now)
    (htime : u.time ≤ now) : Rests now (.udp (u.checkUdpSession now sessions maxsessions).1) := by
  rw [Udp.checkUdpSession]
  cases hstate : u.state with
  | ACTIVE | FINISHING =>
    refine .udp _ (.inl ?_) (le_of_eq ?_)
    all_goals
      simp only [hstate, hidle, and_self, if_true, reduceCtorEq, false_and, if_false]
      split_ifs <;> rfl
  | CLOSED =>
    refine .udp _ (.inl ?_) (le_trans (le_of_eq ?_) htime)
    all_goals
      simp only [hstate, reduceCtorEq, false_and, if_false]
      split_ifs <;> simp [hstate]
  | BLOCKED =>
    refine .udp _ (.inr ?_) (le_trans (le_of_eq ?_) htime)
    all_goals simp [hstate]

lemma rests_checkTcpSession {c : Conn}
    (hidle : c.time + getTcpTimeout c.toTcpSession sessions maxsessions < now)
    (htime : c.time ≤ now) :
    Rests now (.tcp (c.checkTcpSession now sessions maxsessions ok).1) := by
  have hlast : ∀ c : Conn, c.state = .CLOSE ∧ c.time ≤ now → Rests now (.tcp
      (if (c.state = .CLOSING ∨ c.state = .CLOSE) ∧ (c.sent ≠ 0 ∨ c.received ≠ 0) then
        { c with sent := 0, received := 0 } else c)) := by
    rintro c ⟨hstate, htime⟩
    split_ifs
    all_goals exact .tcp _ hstate htime
  unfold Conn.checkTcpSession
  refine hlast _ (Conn.closed_closeSocket ?_)
  split_ifs with hopen hlisten
  · exact .inl rfl
  · exact .inl (Conn.state_writeRst hopen.2.1)
  · by_cases hclosed : c.state = .CLOSE
    · exact .inr ⟨hclosed, htime⟩
    · exact .inl (by_contra fun hclosing => hopen ⟨hclosing, hclosed, hidle⟩)

variable {s : NgSession} {t : ℤ}

/-- A check removes or closes a session that has had no traffic. -/
lemma rests_of_idle (hsessions : 0 ≤ sessions) (hmax : 0 < maxsessions)
    (hidle : s.time + TCP_IDLE_TIMEOUT < now) :
    (s.checkSession now sessions maxsessions ok).2 = true ∨
      Rests now (s.checkSession now sessions maxsessions ok).1 := by
  have hpositive : (0 : ℤ) ≤ TCP_IDLE_TIMEOUT := by decide
  cases s with
  | icmp s =>
    have htimeout : scaleTimeout ICMP_TIMEOUT sessions maxsessions ≤ TCP_IDLE_TIMEOUT :=
      (scaleTimeout_le hsessions hmax (by decide)).trans (by decide)
    have hlt : s.time + scaleTimeout ICMP_TIMEOUT sessions maxsessions < now :=
      lt_of_le_of_lt (Int.add_le_add_left htimeout _) hidle
    exact .inl (by simp [checkSession, Icmp.checkIcmpSession, hlt])
  | udp u =>
    have htimeout := getUdpTimeout_le hsessions hmax u.toUdpSession
    simp only [time] at hidle
    exact .inr (rests_checkUdpSession (by omega) (by omega))
  | tcp c =>
    have htimeout := getTcpTimeout_le hsessions hmax c.toTcpSession
    simp only [time] at hidle
    exact .inr (rests_checkTcpSession (by omega) (by omega))

/-- A check removes a session that has been closed for a while. -/
lemma deleted_of_rests (h : s.Rests t) (hkeep : t + TCP_KEEP_TIMEOUT < now) :
    (s.checkSession now sessions maxsessions ok).2 = true := by
  have hlonger : UDP_KEEP_TIMEOUT ≤ TCP_KEEP_TIMEOUT := by decide
  cases h with
  | udp u hstate htime =>
    have hlt : u.time + UDP_KEEP_TIMEOUT < now := by omega
    rcases hstate with hstate | hstate
    all_goals
      simp [checkSession, Udp.checkUdpSession, hstate, apply_ite, hlt]
  | tcp c hstate htime =>
    have hlt : c.time + TCP_KEEP_TIMEOUT < now := by omega
    simp [checkSession, Conn.checkTcpSession, Conn.closeSocket, hstate, apply_ite, hlt]

end NgSession

end

/-! ### The table -/

namespace Proxy

variable {args : Arguments} {p : Proxy} {f : ℕ → NgSession → NgSession × Bool}
  {sessions : List NgSession} {P : NgSession → Prop}

lemma forall_mem_pass (h : ∀ i, ∀ s ∈ sessions, (f i s).2 = true ∨ P (f i s).1) :
    ∀ s ∈ (pass f sessions).1, P s := by
  induction sessions generalizing f with
  | nil => exact List.forall_mem_nil P
  | cons s sessions ih =>
    have hrest := ih fun i t ht => h (i + 1) t (List.mem_cons_of_mem s ht)
    rw [pass_cons]
    dsimp only
    split_ifs with hdel
    · exact hrest
    · exact List.forall_mem_cons.mpr ⟨(h 0 s List.mem_cons_self).resolve_left hdel, hrest⟩

/-- When there has been no traffic for an hour, two checks with five minutes between them empty the
table. -/
theorem idle_sessions_leave {answers₁ answers₂ : ℕ → ℤ × Bool} {t₀ t₁ : ℤ}
    (h : Reaches (step args) Admits {} p) (hmax : 0 < args.maxsessions)
    (htime : ∀ s ∈ p.sessions, s.time ≤ t₀)
    (hidle : ∀ i, t₀ + TCP_IDLE_TIMEOUT < (answers₁ i).1 ∧ (answers₁ i).1 ≤ t₁)
    (hkeep : ∀ i, t₁ + TCP_KEEP_TIMEOUT < (answers₂ i).1) :
    ((p.checkSessions args answers₁).checkSessions args answers₂).sessions = [] ∧
      (openFiles ((p.checkSessions args answers₁).checkSessions args answers₂).files).Perm
        p.leaked := by
  have hp := (evolves_of_reaches h).sound
  have hfirst : Evolves args.signedChar p (p.checkSessions args answers₁) :=
    evolves_step (e := .check answers₁) hp trivial rfl
  have hsecond : Evolves args.signedChar (p.checkSessions args answers₁)
      ((p.checkSessions args answers₁).checkSessions args answers₂) :=
    evolves_step (e := .check answers₂) hfirst.sound trivial rfl
  have hrests : ∀ s ∈ (p.checkSessions args answers₁).sessions, s.Rests t₁ := by
    refine forall_mem_pass fun i s hs => ?_
    obtain ⟨hlt, hle⟩ := hidle i
    have htimeout : s.time + TCP_IDLE_TIMEOUT < (answers₁ i).1 :=
      lt_of_le_of_lt (Int.add_le_add_right (htime s hs) _) hlt
    exact (NgSession.rests_of_idle hp.count hmax htimeout).imp_right (·.mono hle)
  have hnil : ((p.checkSessions args answers₁).checkSessions args answers₂).sessions = [] :=
    List.eq_nil_iff_forall_not_mem.mpr <| forall_mem_pass (P := fun _ => False) fun i s hs =>
      .inl (NgSession.deleted_of_rests (hrests s hs) (hkeep i))
  have hperm := hsecond.sound.files.perm
  rw [hnil] at hperm
  exact ⟨hnil, hperm⟩

/-- Two checks of the proxy with one session. -/
theorem idle_sessions_leave_answering :
    ((answering.checkSessions ⟨true, false, 250⟩ fun _ => (3601, true)).checkSessions
        ⟨true, false, 250⟩ fun _ => (3902, true)).sessions = [] ∧
      (openFiles ((answering.checkSessions ⟨true, false, 250⟩ fun _ => (3601, true)).checkSessions
        ⟨true, false, 250⟩ fun _ => (3902, true)).files).Perm answering.leaked := by
  have htime : ∀ s ∈ answering.sessions, s.time ≤ 0 := by decide
  have hidle : ∀ i : ℕ, (0 : ℤ) + TCP_IDLE_TIMEOUT < 3601 ∧ (3601 : ℤ) ≤ 3601 := fun _ => by decide
  exact idle_sessions_leave reaches_answering (by decide) htime hidle fun _ => by decide

end Proxy

end Violet.Tun2Http
