import Violet.Dart.Integer
import Violet.Dart.Units

/-!
# The scanner

`Lexer.next` follows a transition table over the code units from the current position and returns
the longest token. White space and comments have the empty name; they are dropped and the scan goes
on. A unit that fits no rule is recorded as an error and passed over. One unit of the fuel pays for
one turn of the loop.
-/

namespace Violet

open Dart

/-- Tables of a scanner: the next node of each node and unit, `none` for the entry `-1`, and the
name of the token that ends at each node. -/
structure LexerTables where
  transitionTable : List (List (Option ℕ))
  acceptTable : List (Option Str)

structure Token where
  name : Str
  contents : Units
  line : ℤ
  column : ℤ
  deriving DecidableEq, Repr

/-- What a call of the scanner ends in, unless it returns a token. -/
inductive LexError where
  | patternNotFound (line column : ℤ) (builder : Units)
  | range
  deriving DecidableEq, Repr

def LexError.text : LexError → Units
  | .patternNotFound line column builder =>
    units "[SCANNER] Pattern not found! L:" ++ (intToString line).flatMap encodeChar ++
      units ", C:" ++ (intToString column).flatMap encodeChar ++ units ", D:'" ++ builder ++
      units "'"
  | .range => units "RangeError"

/-- The scanner between two calls. The target is kept from the current position on. -/
structure Lexer where
  target : Units
  err : Bool
  currentLine : ℤ
  currentColumn : ℤ
  deriving DecidableEq, Repr

/-- A call of `next` in its loop. Beside the variables of the source stands the list of the texts
that have been dropped. -/
structure Scan where
  lexer : Lexer
  builder : Units
  nodePos : ℕ
  curLine : ℤ
  curColumn : ℤ
  dropped : List Units
  deriving DecidableEq, Repr

/-- A call of `next` that has returned. -/
structure Scanned where
  token : Token
  dropped : List Units
  lexer : Lexer
  deriving DecidableEq, Repr

namespace Lexer

def allocateTarget (literal : Units) : Lexer := ⟨literal, false, 0, 0⟩

def valid (l : Lexer) : Bool := l.target ≠ []

/-- The unit at the current position is passed. -/
def skip (l : Lexer) : Lexer := { l with target := l.target.tail }

/-- The unit at the current position becomes part of a token. -/
def count (l : Lexer) (u : UInt16) : Lexer :=
  if u = 10 then { l with currentLine := l.currentLine + 1, currentColumn := 1 }
  else { l with currentColumn := l.currentColumn + 1 }

end Lexer

namespace Scan

variable (tables : LexerTables)

/-- A call begins. -/
def start (l : Lexer) : Scan := ⟨l, [], 0, l.currentLine, l.currentColumn, []⟩

def returns (s : Scan) (name : Str) : Scanned :=
  ⟨⟨name, s.builder, s.curLine + 1, s.curColumn + 1⟩, s.dropped, s.lexer⟩

/-- The text of white space or of a comment is dropped. -/
def drop (s : Scan) : Scan :=
  let lexer := { s.lexer with currentColumn := s.lexer.currentColumn - 1 }
  ⟨lexer, [], 0, lexer.currentLine, lexer.currentColumn, s.dropped ++ [s.builder]⟩

/-- A unit that fits no rule is passed over. -/
def error (s : Scan) : Scan := { s with lexer := { s.lexer.skip with err := true } }

/-- The scan goes on to another node. -/
def go (s : Scan) (u : UInt16) (node : ℕ) : Scan :=
  { s with lexer := (s.lexer.count u).skip, builder := s.builder ++ [u], nodePos := node }

/-- One turn of the loop, at the unit `u`: the scan goes on, or the call is at its end. -/
def turn (s : Scan) (u : UInt16) : Scan ⊕ Except LexError Scanned :=
  match tables.transitionTable[s.nodePos]? with
  | none => .inr (.error .range)
  | some row =>
    match row[u.toNat]? with
    | none => .inr (.error .range)
    | some (some nextTransition) => .inl (s.go u nextTransition)
    | some none =>
      match tables.acceptTable[s.nodePos]? with
      | none => .inr (.error .range)
      | some none => .inl s.error
      | some (some name) => if name = [] then .inl s.drop else .inr (.ok (s.returns name))

/-- The end of the target. -/
def finish (s : Scan) : Except LexError Scanned :=
  match tables.acceptTable[s.nodePos]? with
  | none => .error .range
  | some none => .error (.patternNotFound s.curLine s.curColumn s.builder)
  | some (some name) => .ok (s.returns name)

/-- The loop of `next`. -/
def loop : ℕ → Scan → Option (Except LexError Scanned)
  | 0, _ => none
  | fuel + 1, s =>
    match s.lexer.target with
    | [] => some (s.finish tables)
    | u :: _ =>
      match s.turn tables u with
      | .inl s' => loop fuel s'
      | .inr r => some r

end Scan

namespace Lexer

variable (tables : LexerTables)

def next (fuel : ℕ) (l : Lexer) : Option (Except LexError Scanned) :=
  (Scan.start l).loop tables fuel

/-- Calls of `next` until the target is used up: the scanners before the calls that returned, with
what these returned, and the error that the last call ended in. The fuel pays for the calls, and
for the turns of each one. -/
def run : ℕ → Lexer → Option (List (Lexer × Scanned) × Option LexError)
  | 0, _ => none
  | fuel + 1, l =>
    if l.valid then
      match l.next tables fuel with
      | none => none
      | some (.error e) => some ([], some e)
      | some (.ok r) => (run fuel r.lexer).map fun (calls, e) => ((l, r) :: calls, e)
    else some ([], none)

end Lexer

/-! ### One turn of the loop -/

namespace LexerTables

variable (tables : LexerTables)

/-- The next node, where the tables have an entry. -/
def next? (node : ℕ) (u : UInt16) : Option ℕ :=
  ((tables.transitionTable[node]?.bind fun row => row[u.toNat]?).getD none)

/-- The name of the token that ends at a node. -/
def name? (node : ℕ) : Option Str := tables.acceptTable[node]?.getD none

/-- All rows have 256 columns, no token ends before its first unit, and every transition leads to a
node of the tables other than the first one. -/
structure Complete : Prop where
  start : tables.acceptTable[0]? = some none
  accept_length : tables.acceptTable.length = tables.transitionTable.length
  row_length : ∀ row ∈ tables.transitionTable, row.length = 256
  next : ∀ row ∈ tables.transitionTable, ∀ n, some n ∈ row →
    n ≠ 0 ∧ n < tables.transitionTable.length

variable {tables}

lemma Complete.next?_eq_some (h : tables.Complete) {node n : ℕ} {u : UInt16}
    (hn : tables.next? node u = some n) : n ≠ 0 ∧ n < tables.transitionTable.length := by
  obtain ⟨o, ho, rfl⟩ : ∃ o,
      (tables.transitionTable[node]?.bind fun row => row[u.toNat]?) = some o ∧ o = some n := by
    cases hb : tables.transitionTable[node]?.bind fun row => row[u.toNat]? with
    | none => simp [next?, hb] at hn
    | some o => exact ⟨o, rfl, by simpa [next?, hb] using hn⟩
  obtain ⟨row, hrow, hu⟩ := Option.bind_eq_some_iff.mp ho
  exact h.next row (List.mem_of_getElem? hrow) n (List.mem_of_getElem? hu)

lemma Complete.name?_zero (h : tables.Complete) : tables.name? 0 = none := by
  simp [name?, h.start]

end LexerTables

namespace Scan

variable {tables : LexerTables} {s : Scan} {u : UInt16}

/-- A unit outside of the columns. -/
lemma turn_range (hc : tables.Complete) (hnode : s.nodePos < tables.transitionTable.length)
    (hu : 256 ≤ u.toNat) : s.turn tables u = .inr (.error .range) := by
  have hrow := List.getElem?_eq_getElem hnode
  have hcol : tables.transitionTable[s.nodePos][u.toNat]? = none := by
    rw [List.getElem?_eq_none_iff, hc.row_length _ (List.getElem_mem hnode)]
    exact hu
  simp only [turn, hrow, hcol]

/-- A unit of the columns: the scan follows the transition, or does what the name of the node
says. -/
lemma turn_eq (hc : tables.Complete) (hnode : s.nodePos < tables.transitionTable.length)
    (hu : u.toNat < 256) :
    s.turn tables u =
      match tables.next? s.nodePos u, tables.name? s.nodePos with
      | some n, _ => .inl (s.go u n)
      | none, none => .inl s.error
      | none, some name => if name = [] then .inl s.drop else .inr (.ok (s.returns name)) := by
  have hlen := hc.row_length _ (List.getElem_mem hnode)
  have hrow := List.getElem?_eq_getElem hnode
  have hcol := List.getElem?_eq_getElem (hlen.symm ▸ hu)
  obtain ⟨name, hname⟩ : ∃ name, tables.acceptTable[s.nodePos]? = some name :=
    ⟨_, List.getElem?_eq_getElem (hc.accept_length.symm ▸ hnode)⟩
  simp only [turn, LexerTables.next?, LexerTables.name?, hrow, hcol, hname, Option.bind_some,
    Option.getD_some]
  cases tables.transitionTable[s.nodePos][u.toNat] with
  | some n => rfl
  | none => cases name <;> rfl

lemma finish_eq (hc : tables.Complete) (hnode : s.nodePos < tables.transitionTable.length) :
    s.finish tables =
      match tables.name? s.nodePos with
      | none => .error (.patternNotFound s.curLine s.curColumn s.builder)
      | some name => .ok (s.returns name) := by
  obtain ⟨name, hname⟩ : ∃ name, tables.acceptTable[s.nodePos]? = some name :=
    ⟨_, List.getElem?_eq_getElem (hc.accept_length.symm ▸ hnode)⟩
  simp only [finish, LexerTables.name?, hname, Option.getD_some]
  cases name <;> rfl

@[simp] lemma target_go (n : ℕ) : (s.go u n).lexer.target = s.lexer.target.tail := by
  simp only [go, Lexer.skip, Lexer.count]
  split_ifs <;> rfl

@[simp] lemma target_error : s.error.lexer.target = s.lexer.target.tail := rfl

@[simp] lemma target_drop : s.drop.lexer.target = s.lexer.target := rfl

@[simp] lemma target_returns (name : Str) : (s.returns name).lexer.target = s.lexer.target := rfl

/-! ### A call -/

variable {l : Lexer} {rest : Units} {fuel : ℕ}

/-- A scan during a call on `l`: when it has left the first node, it has consumed a unit. -/
structure Within (tables : LexerTables) (l : Lexer) (s : Scan) : Prop where
  node : s.nodePos < tables.transitionTable.length
  suffix : s.lexer.target <:+ l.target
  consumed : s.nodePos ≠ 0 → s.lexer.target.length < l.target.length

/-- Turns that are left at most: one for every unit, and one for dropping a text before it. -/
def measure (s : Scan) : ℕ := 2 * s.lexer.target.length + if s.nodePos = 0 then 0 else 1

lemma within_start (hc : tables.Complete) (l : Lexer) : (start l).Within tables l where
  node := by
    have := (List.getElem?_eq_some_iff.mp hc.start).1
    rwa [hc.accept_length] at this
  suffix := List.suffix_rfl
  consumed h := absurd rfl h

lemma Within.go (hc : tables.Complete) (h : s.Within tables l) (ht : s.lexer.target = u :: rest)
    {n : ℕ} (hn : tables.next? s.nodePos u = some n) :
    (s.go u n).Within tables l ∧ (s.go u n).measure < s.measure := by
  have hsuffix : rest <:+ l.target := (List.suffix_cons u rest).trans (ht ▸ h.suffix)
  have hlen : (u :: rest).length ≤ l.target.length := (ht ▸ h.suffix).length_le
  refine ⟨⟨(hc.next?_eq_some hn).2, by simpa [ht] using hsuffix, fun _ => ?_⟩, ?_⟩
  · rw [target_go, ht, List.tail_cons]
    exact hlen
  · simp only [measure, target_go, ht, List.tail_cons, List.length_cons]
    split_ifs <;> omega

lemma Within.error (h : s.Within tables l) (ht : s.lexer.target = u :: rest) :
    s.error.Within tables l ∧ s.error.measure < s.measure := by
  have hsuffix : rest <:+ l.target := (List.suffix_cons u rest).trans (ht ▸ h.suffix)
  refine ⟨⟨h.node, by simpa [ht] using hsuffix, fun hnode => ?_⟩, ?_⟩
  · have hlen := h.consumed hnode
    rw [ht, List.length_cons] at hlen
    rw [target_error, ht, List.tail_cons]
    omega
  · have hnode : s.error.nodePos = s.nodePos := rfl
    simp only [measure, hnode, target_error, ht, List.tail_cons, List.length_cons]
    omega

lemma Within.drop (hc : tables.Complete) (h : s.Within tables l) {name : Str}
    (hname : tables.name? s.nodePos = some name) :
    s.drop.Within tables l ∧ s.drop.measure < s.measure := by
  have hnode : s.nodePos ≠ 0 := fun h0 => by
    rw [h0, hc.name?_zero] at hname
    cases hname
  refine ⟨⟨(within_start hc l).node, h.suffix, fun h0 => absurd rfl h0⟩, ?_⟩
  have hdrop : s.drop.nodePos = 0 := rfl
  simp only [measure, target_drop, hdrop, if_true, if_neg hnode]
  omega

lemma Within.consumed_of_name (hc : tables.Complete) (h : s.Within tables l) {name : Str}
    (hname : tables.name? s.nodePos = some name) :
    s.lexer.target.length < l.target.length := by
  refine h.consumed fun h0 => ?_
  rw [h0, hc.name?_zero] at hname
  cases hname

/-- One turn at a unit of the columns: the scan stays within the call and comes closer to its end,
or a token is returned and units have been consumed. -/
lemma Within.turn (hc : tables.Complete) (h : s.Within tables l) (ht : s.lexer.target = u :: rest)
    (hu : u.toNat < 256) :
    (∃ s', s.turn tables u = .inl s' ∧ s'.Within tables l ∧ s'.measure < s.measure ∧
      s'.lexer.target <:+ s.lexer.target ∧ rest <:+ s'.lexer.target) ∨
    ∃ r, s.turn tables u = .inr (.ok r) ∧ r.lexer.target = s.lexer.target ∧
      r.lexer.target.length < l.target.length := by
  rw [turn_eq hc h.node hu]
  cases hn : tables.next? s.nodePos u with
  | some n =>
    obtain ⟨hw, hm⟩ := h.go hc ht hn
    exact .inl ⟨_, rfl, hw, hm, by simp [ht], by simp [ht]⟩
  | none =>
    cases hname : tables.name? s.nodePos with
    | none =>
      obtain ⟨hw, hm⟩ := h.error ht
      exact .inl ⟨_, rfl, hw, hm, by simp [ht], by simp [ht]⟩
    | some name =>
      by_cases hempty : name = []
      · obtain ⟨hw, hm⟩ := h.drop hc hname
        exact .inl ⟨s.drop, if_pos hempty, hw, hm, by simp, by simp [ht]⟩
      · exact .inr ⟨s.returns name, if_neg hempty, rfl, h.consumed_of_name hc hname⟩

/-- What a call may end in: a token, after units have been consumed, the scanner's own exception, or
an access outside of the columns. -/
def Ends (l : Lexer) : Except LexError Scanned → Prop
  | .ok r => r.lexer.target <:+ l.target ∧ r.lexer.target.length < l.target.length
  | .error e => e = .range → ∃ u ∈ l.target, 256 ≤ u.toNat

/-- The loop ends. -/
theorem loop_ends (hc : tables.Complete) (h : s.Within tables l) (hfuel : s.measure < fuel) :
    ∃ r, s.loop tables fuel = some r ∧ Ends l r := by
  induction fuel generalizing s with
  | zero => cases hfuel
  | succ fuel ih =>
    cases ht : s.lexer.target with
    | nil =>
      refine ⟨s.finish tables, by simp only [loop, ht], ?_⟩
      rw [finish_eq hc h.node]
      cases hname : tables.name? s.nodePos with
      | none => exact fun heq => by cases heq
      | some name => exact ⟨h.suffix, h.consumed_of_name hc hname⟩
    | cons u rest =>
      by_cases hu : u.toNat < 256
      · rcases h.turn hc ht hu with ⟨s', hs', hw, hm, -, -⟩ | ⟨r, hr, htr, hlt⟩
        · obtain ⟨r, hr, hends⟩ := ih hw (by omega)
          exact ⟨r, by simp only [loop, ht, hs', hr], hends⟩
        · exact ⟨.ok r, by simp only [loop, ht, hr], htr ▸ h.suffix, hlt⟩
      · have hturn := turn_range hc h.node (not_lt.mp hu)
        refine ⟨.error .range, by simp only [loop, ht, hturn], fun _ => ⟨u, ?_, not_lt.mp hu⟩⟩
        exact h.suffix.subset (by simp [ht])

/-- A unit outside of the columns is not passed. -/
lemma loop_range (hc : tables.Complete) (h : s.Within tables l) {r : Except LexError Scanned}
    (hu : ∃ u ∈ s.lexer.target, 256 ≤ u.toNat) (hr : s.loop tables fuel = some r) :
    r = .error .range ∨ ∃ r', r = .ok r' ∧ ∃ u ∈ r'.lexer.target, 256 ≤ u.toNat := by
  induction fuel generalizing s with
  | zero => cases hr
  | succ fuel ih =>
    cases ht : s.lexer.target with
    | nil => simp [ht] at hu
    | cons u rest =>
      by_cases hlt : u.toNat < 256
      · rcases h.turn hc ht hlt with ⟨s', hs', hw, -, -, hrest⟩ | ⟨r', hr', htr, -⟩
        · simp only [loop, ht, hs'] at hr
          refine ih hw ?_ hr
          obtain ⟨v, hv, hge⟩ := hu
          refine ⟨v, hrest.subset ?_, hge⟩
          rcases List.mem_cons.mp (ht ▸ hv) with rfl | hmem
          · omega
          · exact hmem
        · simp only [loop, ht, hr', Option.some.injEq] at hr
          exact .inr ⟨r', hr.symm, htr ▸ hu⟩
      · simp only [loop, ht, turn_range hc h.node (not_lt.mp hlt), Option.some.injEq] at hr
        exact .inl hr.symm

lemma loop_le {s : Scan} {r : Except LexError Scanned} {fuel fuel' : ℕ}
    (hr : s.loop tables fuel = some r) (hle : fuel ≤ fuel') : s.loop tables fuel' = some r := by
  induction fuel generalizing s fuel' with
  | zero => cases hr
  | succ fuel ih =>
    obtain ⟨n, rfl⟩ := Nat.exists_eq_add_of_le' hle
    rw [← Nat.add_assoc]
    rw [loop] at hr ⊢
    cases ht : s.lexer.target with
    | nil => simpa only [ht] using hr
    | cons u rest =>
      simp only [ht] at hr ⊢
      cases hturn : s.turn tables u with
      | inr r' => simpa only [hturn] using hr
      | inl s' =>
        simp only [hturn] at hr ⊢
        exact ih hr (by omega)

end Scan

/-! ### Repeated calls -/

namespace Lexer

variable {tables : LexerTables} {l : Lexer}

/-- The calls of `next` come to an end, none of them leaves the tables, and each one that returns
has consumed a unit. -/
def Safe (tables : LexerTables) (l : Lexer) : Prop :=
  ∃ fuel calls e, l.run tables fuel = some (calls, e) ∧ e ≠ some .range ∧
    ∀ c ∈ calls, c.2.lexer.target.length < c.1.target.length

theorem next_ends (hc : tables.Complete) {fuel : ℕ} (hfuel : 2 * l.target.length < fuel) :
    ∃ r, l.next tables fuel = some r ∧ Scan.Ends l r :=
  Scan.loop_ends hc (Scan.within_start hc l) hfuel

theorem run_ends (hc : tables.Complete) {fuel : ℕ} (hfuel : 2 * l.target.length + 1 < fuel) :
    ∃ calls e, l.run tables fuel = some (calls, e) ∧
      (e = some .range → ∃ u ∈ l.target, 256 ≤ u.toNat) ∧
      ∀ c ∈ calls, c.2.lexer.target.length < c.1.target.length := by
  induction fuel generalizing l with
  | zero => cases hfuel
  | succ fuel ih =>
    by_cases hv : l.valid = true
    · have hfuel' : 2 * l.target.length < fuel := by omega
      obtain ⟨r, hr, hends⟩ := next_ends hc hfuel'
      cases r with
      | error e =>
        refine ⟨[], some e, by simp only [run, hv, if_true, hr], ?_, by simp⟩
        exact fun heq => hends (Option.some.inj heq)
      | ok r =>
        obtain ⟨hsuffix, hlt⟩ := hends
        obtain ⟨calls, e, hrun, he, hcalls⟩ := ih (l := r.lexer) (by omega)
        refine ⟨(l, r) :: calls, e, by simp only [run, hv, if_true, hr, hrun, Option.map_some],
          fun heq => ?_, ?_⟩
        · obtain ⟨u, hu, hge⟩ := he heq
          exact ⟨u, hsuffix.subset hu, hge⟩
        · intro c hmem
          rcases List.mem_cons.mp hmem with rfl | hmem
          · exact hlt
          · exact hcalls c hmem
    · exact ⟨[], none, by simp only [run, if_neg hv], by simp, by simp⟩

lemma run_le {l : Lexer} {fuel fuel' : ℕ} {r : List (Lexer × Scanned) × Option LexError}
    (hrun : l.run tables fuel = some r) (hle : fuel ≤ fuel') : l.run tables fuel' = some r := by
  induction fuel generalizing l r fuel' with
  | zero => cases hrun
  | succ fuel ih =>
    obtain ⟨n, rfl⟩ := Nat.exists_eq_add_of_le' hle
    rw [← Nat.add_assoc]
    rw [run] at hrun ⊢
    by_cases hv : l.valid = true
    · simp only [hv, if_true] at hrun ⊢
      cases hnext : l.next tables fuel with
      | none => simp [hnext] at hrun
      | some r' =>
        rw [hnext] at hrun
        rw [next, Scan.loop_le hnext (Nat.le_add_left _ n)]
        cases r' with
        | error e => exact hrun
        | ok r' =>
          obtain ⟨rest, hrest, rfl⟩ := Option.map_eq_some_iff.mp hrun
          simp only [ih hrest (Nat.le_add_left _ n), Option.map_some]
    · simpa only [if_neg hv] using hrun

lemma run_range (hc : tables.Complete) (hu : ∃ u ∈ l.target, 256 ≤ u.toNat) {fuel : ℕ}
    {calls : List (Lexer × Scanned)} {e : Option LexError}
    (hrun : l.run tables fuel = some (calls, e)) : e = some .range := by
  induction fuel generalizing l calls with
  | zero => cases hrun
  | succ fuel ih =>
    have hv : l.valid = true := by
      obtain ⟨u, hmem, -⟩ := hu
      simpa [valid] using List.ne_nil_of_mem hmem
    simp only [run, hv, if_true] at hrun
    cases hnext : l.next tables fuel with
    | none => simp [hnext] at hrun
    | some r =>
      rw [hnext] at hrun
      rcases Scan.loop_range hc (Scan.within_start hc l) hu hnext with rfl | ⟨r', rfl, hu'⟩
      · cases hrun
        rfl
      · obtain ⟨⟨calls', e'⟩, hrest, heq⟩ := Option.map_eq_some_iff.mp hrun
        cases heq
        exact ih hu' hrest

/-- The scanner is safe exactly on the texts whose units are within the columns. -/
theorem safe_iff (hc : tables.Complete) :
    l.Safe tables ↔ ∀ u ∈ l.target, u.toNat < 256 := by
  constructor
  · rintro ⟨fuel, calls, e, hrun, he, -⟩ u hmem
    by_contra hge
    exact he (run_range hc ⟨u, hmem, not_lt.mp hge⟩ hrun)
  · intro hu
    obtain ⟨calls, e, hrun, he, hcalls⟩ := run_ends hc (l := l) (Nat.lt_succ_self _)
    refine ⟨_, calls, e, hrun, fun heq => ?_, hcalls⟩
    obtain ⟨u, hmem, hge⟩ := he heq
    exact absurd (hu u hmem) (not_lt.mpr hge)

end Lexer

end Violet
