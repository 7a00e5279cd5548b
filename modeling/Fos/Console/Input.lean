import Fos.Foundation.Ring
import Fos.Foundation.Runs

/-! The console input buffer of `kern/console.c`. -/

set_option autoImplicit false

namespace Fos.Console

open Foundation

abbrev consBufSize : Nat := 512

structure Cons where
  buf : Nat → BitVec 8
  rpos : Nat
  wpos : Nat

/-- What `serial_proc_data` and `kbd_proc_data` return, with `none` for -1. -/
abbrev Reply := Option (BitVec 8)

namespace Cons

def store (cons : Cons) (c : BitVec 8) : Cons :=
  { cons with buf := Function.update cons.buf cons.wpos c, wpos := Ring.advance consBufSize cons.wpos }

/-- A byte from a device; 0 is skipped. -/
def receive (cons : Cons) : Reply → Cons
  | none => cons
  | some c => if c = 0 then cons else cons.store c

/-- The next byte, or 0 if none is waiting. -/
def read (cons : Cons) : BitVec 8 × Cons :=
  if cons.rpos ≠ cons.wpos then
    (cons.buf cons.rpos, { cons with rpos := Ring.advance consBufSize cons.rpos })
  else (0, cons)

/-- `cons_intr`, with what `proc` returns before it returns -1. -/
def consIntr (cons : Cons) (replies : List (BitVec 8)) : Cons :=
  replies.foldl (fun cons c => cons.receive (some c)) cons

def consGetc (serialExists : Bool) (serial keyboard : List (BitVec 8)) (cons : Cons) : BitVec 8 × Cons :=
  let cons := if serialExists then cons.consIntr serial else cons
  (cons.consIntr keyboard).read

def consGetc2 (serialExists : Bool) (serial keyboard : Reply) (cons : Cons) : BitVec 8 × Cons :=
  let cons := if serialExists then cons.receive serial else cons
  let cons := cons.receive keyboard
  match keyboard with
  | some c2 => if c2 > 0 then cons.read else (0, cons)
  | none => (0, cons)

/-- The unread bytes, the oldest first. -/
structure Unread (cons : Cons) (bytes : List (BitVec 8)) : Prop where
  holds : Ring.Holds consBufSize cons.buf cons.rpos cons.wpos bytes
  nonzero : ∀ byte ∈ bytes, byte ≠ 0

end Cons

/-- The byte that is taken from a device. -/
def Reply.bytes (reply : Reply) : List (BitVec 8) := reply.toList.filter (· ≠ 0)

variable {cons : Cons} {bytes : List (BitVec 8)} {reply serial keyboard : Reply} {serialExists : Bool}

namespace Cons.Unread

theorem receive (unread : cons.Unread bytes) (room : bytes.length + reply.bytes.length < consBufSize) :
    (cons.receive reply).Unread (bytes ++ reply.bytes) := by
  cases reply with
  | none => exact (List.append_nil bytes).symm ▸ unread
  | some c =>
      cases decEq c 0 with
      | isTrue zero =>
          have nothing : Reply.bytes (some c) = [] := List.filter_cons_of_neg (by simp [zero])
          rw [Cons.receive, if_pos zero, nothing, List.append_nil]
          exact unread
      | isFalse nonzero =>
          have one : Reply.bytes (some c) = [c] := List.filter_cons_of_pos (decide_eq_true nonzero)
          rw [Cons.receive, if_neg nonzero, one]
          rw [one] at room
          refine ⟨unread.holds.push room c, fun byte member => ?_⟩
          cases List.mem_append.1 member with
          | inl earlier => exact unread.nonzero byte earlier
          | inr last => exact List.mem_singleton.1 last ▸ nonzero

theorem consIntr (replies : List (BitVec 8)) : ∀ {cons : Cons} {bytes : List (BitVec 8)}, cons.Unread bytes →
    bytes.length + (replies.filter (· ≠ 0)).length < consBufSize →
    (cons.consIntr replies).Unread (bytes ++ replies.filter (· ≠ 0)) := by
  induction replies with
  | nil => exact fun unread _ => (List.append_nil _).symm ▸ unread
  | cons c replies ih =>
      intro cons bytes unread room
      have parts : (c :: replies).filter (· ≠ 0) = Reply.bytes (some c) ++ replies.filter (· ≠ 0) := by
        simp only [Reply.bytes, Option.toList_some, List.filter_cons, List.filter_nil]
        split <;> rfl
      rw [parts, List.length_append, ← Nat.add_assoc] at room
      rw [parts, ← List.append_assoc]
      apply ih (unread.receive (Nat.lt_of_le_of_lt (Nat.le_add_right ..) room))
      rw [List.length_append]
      exact room

/-- The oldest byte is handed out. -/
theorem handOut (unread : cons.Unread bytes) : cons.read.1 = bytes.headD 0 ∧ cons.read.2.Unread bytes.tail := by
  unfold Cons.read
  cases bytes with
  | nil =>
      rw [if_neg (not_not_intro (unread.holds.meet_iff.2 rfl))]
      exact ⟨rfl, unread⟩
  | cons byte bytes =>
      rw [if_pos fun meet => List.cons_ne_nil _ _ (unread.holds.meet_iff.1 meet)]
      obtain ⟨oldest, rest⟩ := unread.holds.pop
      exact ⟨oldest, rest, fun other member => unread.nonzero other (List.mem_cons_of_mem _ member)⟩

end Cons.Unread

/-! ### A schedule of input and calls -/

/-- The buffer, with the bytes that were taken from the devices and those that were handed out. -/
structure Session where
  cons : Cons
  taken : List (BitVec 8)
  handed : List (BitVec 8)

/-- A device interrupt, with what the device delivers, or a call of `cons_getc2` and what it finds
at the two devices. -/
inductive Event where
  | intr (replies : List (BitVec 8))
  | getc2 (serial keyboard : Reply)

/-- The bytes that are taken from the devices, the serial port first. -/
def arrivals (serialExists : Bool) (serial keyboard : Reply) : List (BitVec 8) :=
  (if serialExists then serial.bytes else []) ++ keyboard.bytes

def Event.taken (serialExists : Bool) : Event → List (BitVec 8)
  | .intr replies => replies.filter (· ≠ 0)
  | .getc2 serial keyboard => arrivals serialExists serial keyboard

/-- Never more than 511 bytes are unread. -/
def Fits (serialExists : Bool) (session : Session) (event : Event) : Prop :=
  session.taken.length + (event.taken serialExists).length ≤ session.handed.length + 511

def exec (serialExists : Bool) (session : Session) : Event → Session
  | .intr replies =>
      { session with
        cons := session.cons.consIntr replies
        taken := session.taken ++ replies.filter (· ≠ 0) }
  | .getc2 serial keyboard =>
      let result := session.cons.consGetc2 serialExists serial keyboard
      { cons := result.2
        taken := session.taken ++ arrivals serialExists serial keyboard
        handed := if result.1 = 0 then session.handed else session.handed ++ [result.1] }

instance (serialExists : Bool) (session : Session) (event : Event) : Decidable (Fits serialExists session event) :=
  Nat.decLe ..

def Session.initial : Session := ⟨⟨fun _ => 0, 0, 0⟩, [], []⟩

/-- The console from when the kernel starts. -/
def console (serialExists : Bool) : System Session Event where
  start session := session = .initial
  exec session event := some (exec serialExists session event)

/-- What was taken from the devices is what was handed out and then what the buffer holds. -/
def Session.InOrder (session : Session) : Prop :=
  ∃ bytes, session.cons.Unread bytes ∧ session.taken = session.handed ++ bytes

/-- A call of `cons_getc2` returns the oldest unread byte, and 0 only if there is none. -/
def Session.Serves (session : Session) (serialExists : Bool) (serial keyboard : Reply) : Prop :=
  (session.cons.consGetc2 serialExists serial keyboard).1 =
    (session.taken.drop session.handed.length ++ arrivals serialExists serial keyboard).headD 0

instance (session : Session) (serial keyboard : Reply) : Decidable (session.Serves serialExists serial keyboard) :=
  decEq _ _

namespace Cons.Unread

/-- The bytes of both devices are behind the unread ones. -/
theorem arrive (unread : cons.Unread bytes)
    (room : bytes.length + (arrivals serialExists serial keyboard).length < consBufSize) :
    ((if serialExists then cons.receive serial else cons).receive keyboard).Unread
      (bytes ++ arrivals serialExists serial keyboard) := by
  cases serialExists with
  | false => exact unread.receive room
  | true =>
      simp only [arrivals, if_true, List.length_append, ← Nat.add_assoc] at room ⊢
      rw [← List.append_assoc]
      apply (unread.receive (Nat.lt_of_le_of_lt (Nat.le_add_right ..) room)).receive
      rw [List.length_append]
      exact room

/-- A byte of the keyboard makes `cons_getc2` hand out the oldest byte. -/
theorem consGetc2_pressed (unread : cons.Unread bytes) (pressed : keyboard.bytes ≠ [])
    (room : bytes.length + (arrivals serialExists serial keyboard).length < consBufSize) :
    (cons.consGetc2 serialExists serial keyboard).1 = (bytes ++ arrivals serialExists serial keyboard).headD 0 ∧
      (cons.consGetc2 serialExists serial keyboard).2.Unread (bytes ++ arrivals serialExists serial keyboard).tail := by
  have result : cons.consGetc2 serialExists serial keyboard =
      ((if serialExists then cons.receive serial else cons).receive keyboard).read := by
    cases keyboard with
    | none => exact absurd rfl pressed
    | some c2 =>
        have positive : c2 > 0 := by
          apply (BitVec.pos_iff_ne_zero c2).2
          rintro rfl
          exact pressed rfl
        exact if_pos positive
  rw [result]
  exact (unread.arrive room).handOut

theorem consGetc2_idle (unread : cons.Unread bytes) (idle : keyboard.bytes = [])
    (room : bytes.length + (arrivals serialExists serial keyboard).length < consBufSize) :
    (cons.consGetc2 serialExists serial keyboard).1 = 0 ∧
      (cons.consGetc2 serialExists serial keyboard).2.Unread (bytes ++ arrivals serialExists serial keyboard) := by
  have result : cons.consGetc2 serialExists serial keyboard =
      (0, (if serialExists then cons.receive serial else cons).receive keyboard) := by
    cases keyboard with
    | none => rfl
    | some c2 =>
        have notPositive : ¬ c2 > 0 := by
          intro positive
          have kept : Reply.bytes (some c2) = [c2] :=
            List.filter_cons_of_pos (decide_eq_true ((BitVec.pos_iff_ne_zero c2).1 positive))
          exact List.cons_ne_nil _ _ (kept.symm.trans idle)
        exact if_neg notPositive
  rw [result]
  exact ⟨rfl, unread.arrive room⟩

end Cons.Unread

/-- `cons_getc` hands out the oldest unread byte whichever device it came from. -/
theorem consGetc_eq (replies others : List (BitVec 8)) (unread : cons.Unread bytes)
    (room : bytes.length + (replies.filter (· ≠ 0)).length + (others.filter (· ≠ 0)).length < consBufSize) :
    (cons.consGetc true replies others).1 =
      (bytes ++ replies.filter (· ≠ 0) ++ others.filter (· ≠ 0)).headD 0 := by
  have first := unread.consIntr replies (Nat.lt_of_le_of_lt (Nat.le_add_right ..) room)
  rw [← List.length_append] at room
  exact (first.consIntr others room).handOut.1

variable {session next : Session} {event : Event}

theorem Session.InOrder.exec (inOrder : session.InOrder) (fits : Fits serialExists session event) :
    (exec serialExists session event).InOrder := by
  obtain ⟨bytes, unread, order⟩ := inOrder
  have room : bytes.length + (event.taken serialExists).length < consBufSize := by
    unfold Fits at fits
    rw [order, List.length_append] at fits
    unfold consBufSize
    omega
  cases event with
  | intr replies =>
      have extended : session.taken ++ replies.filter (· ≠ 0) = session.handed ++ (bytes ++ replies.filter (· ≠ 0)) := by
        rw [order, List.append_assoc]
      exact ⟨_, unread.consIntr replies room, extended⟩
  | getc2 serial keyboard =>
      have extended : session.taken ++ arrivals serialExists serial keyboard =
          session.handed ++ (bytes ++ arrivals serialExists serial keyboard) := by
        rw [order, List.append_assoc]
      cases found : keyboard.bytes with
      | nil =>
          obtain ⟨nothing, after⟩ := unread.consGetc2_idle found room
          refine ⟨_, after, extended.trans ?_⟩
          simp only [Console.exec, nothing, if_true]
      | cons byte more =>
          have pressed : keyboard.bytes ≠ [] := found ▸ List.cons_ne_nil byte more
          obtain ⟨oldest, after⟩ := unread.consGetc2_pressed pressed room
          have all := unread.arrive room
          cases waiting : bytes ++ arrivals serialExists serial keyboard with
          | nil =>
              rw [arrivals, ← List.append_assoc] at waiting
              exact absurd (List.append_eq_nil_iff.1 waiting).2 pressed
          | cons first rest =>
              rw [waiting] at oldest after extended all
              have nonzero : first ≠ 0 := all.nonzero first (List.mem_cons_self ..)
              refine ⟨rest, after, extended.trans ?_⟩
              simp only [Console.exec, oldest, List.headD_cons, if_neg nonzero, List.append_assoc, List.singleton_append]

theorem inOrder_of_reaches (reached : (console serialExists).Reaches (Fits serialExists) session) : session.InOrder := by
  apply reached.invariant Session.InOrder
  · rintro _ rfl
    exact ⟨[], ⟨Ring.Holds.empty (by decide), fun _ member => nomatch member⟩, rfl⟩
  · intro before event after inOrder fits executes
    cases executes
    exact inOrder.exec fits

/-- Input keeps its order and none is lost. A call hands out what it should exactly if it takes a
byte from the keyboard, or there is nothing to hand out. -/
theorem consGetc2_serves_iff (reached : (console serialExists).Reaches (Fits serialExists) session)
    (fits : Fits serialExists session (.getc2 serial keyboard)) :
    session.InOrder ∧ (exec serialExists session (.getc2 serial keyboard)).InOrder ∧
      (session.Serves serialExists serial keyboard ↔ keyboard.bytes ≠ [] ∨
        session.cons.rpos = session.cons.wpos ∧ arrivals serialExists serial keyboard = []) := by
  have inOrder := inOrder_of_reaches reached
  refine ⟨inOrder, inOrder.exec fits, ?_⟩
  obtain ⟨bytes, unread, order⟩ := inOrder
  have room : bytes.length + (arrivals serialExists serial keyboard).length < consBufSize := by
    unfold Fits at fits
    rw [order, List.length_append] at fits
    unfold consBufSize
    change _ + (arrivals serialExists serial keyboard).length ≤ _ at fits
    omega
  rw [Session.Serves, order, List.drop_left]
  cases found : keyboard.bytes with
  | cons byte more =>
      have pressed : keyboard.bytes ≠ [] := found ▸ List.cons_ne_nil byte more
      exact iff_of_true (unread.consGetc2_pressed pressed room).1 (.inl (List.cons_ne_nil byte more))
  | nil =>
      rw [(unread.consGetc2_idle found room).1, unread.holds.meet_iff]
      have all := unread.arrive room
      constructor
      · intro nothing
        cases waiting : bytes ++ arrivals serialExists serial keyboard with
        | nil => exact .inr (List.append_eq_nil_iff.1 waiting)
        | cons first rest =>
            rw [waiting] at nothing all
            exact absurd nothing.symm (all.nonzero first (List.mem_cons_self ..))
      · rintro (pressed | ⟨rfl, none⟩)
        · exact absurd rfl pressed
        · rw [none]
          rfl

/-- The first call finds a byte at the keyboard. -/
theorem consGetc2_serves_iff_first :
    Session.initial.InOrder ∧ (exec true .initial (.getc2 none (some 97))).InOrder ∧
      (Session.initial.Serves true none (some 97) ↔ Reply.bytes (some 97) ≠ [] ∨
        Session.initial.cons.rpos = Session.initial.cons.wpos ∧ arrivals true none (some 97) = []) :=
  consGetc2_serves_iff (.start rfl) (by decide)

/-- The first call finds a byte at the serial port only. -/
theorem not_consGetc2_serves : ∃ session, (console true).Reaches (Fits true) session ∧
    Fits true session (.getc2 (some 97) none) ∧ ¬ session.Serves true (some 97) none :=
  ⟨_, .start rfl, by decide, by decide⟩

end Fos.Console
