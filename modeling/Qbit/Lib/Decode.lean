import Qbit.Lib.Bytes

/-!
# Reading values off byte strings

A `Reader` takes a value off the front of a byte string, or fails.  `Reads d bs a` says that `d` takes
exactly `bs` off, whatever follows it, and gives `a`: the bytes are an encoding of `a` that `d`
reads back.  `Inverts d encode` is the converse: whatever `d` takes off is the encoding of what it
gives.
-/

open Bytes

namespace Decode

/-- A value off the front of a byte string. -/
abbrev Reader (α : Type) := StateT (List UInt8) Option α

variable {α β : Type}

/-- A number of bytes. -/
def take (n : Nat) : Reader (List UInt8) := fun bs =>
  if n ≤ bs.length then some (bs.take n, bs.drop n) else none

/-- A number of bytes, with the proof that they are so many. -/
def array (n : Nat) : Reader { bs : List UInt8 // bs.length = n } := fun bs =>
  if h : n ≤ bs.length then some (⟨bs.take n, List.length_take_of_le h⟩, bs.drop n) else none

/-- A little-endian number of `k` bytes. -/
def number (k : Nat) : Reader Nat := ofLE <$> take k

/-- Go on only if something holds. -/
def check (p : Prop) [Decidable p] : Reader Unit := fun bs => if p then some ((), bs) else none

/-! ## What is read back -/

/-- The reader takes these bytes off, whatever follows, and gives this value. -/
def Reads (d : Reader α) (bs : List UInt8) (a : α) : Prop :=
  ∀ rest, d.run (bs ++ rest) = some (a, rest)

namespace Reads

theorem pure (a : α) : Reads (Pure.pure a) [] a := fun _ => rfl

variable {d : Reader α} {f : α → Reader β} {bs : List UInt8} {a : α}

theorem bind {bs' : List UInt8} {b : β} (hd : Reads d bs a) (hf : Reads (f a) bs' b) :
    Reads (d >>= f) (bs ++ bs') b := fun rest => by
  rw [StateT.run_bind, List.append_assoc, hd (bs' ++ rest)]
  exact hf rest

theorem bind_nil {b : β} (hd : Reads d [] a) (hf : Reads (f a) bs b) :
    Reads (d >>= f) bs b := bind hd hf

theorem map (f : α → β) (hd : Reads d bs a) :
    Reads (f <$> d) bs (f a) := fun rest => by
  rw [StateT.run_map, hd rest]
  rfl

theorem take {n : Nat} (h : bs.length = n) : Reads (take n) bs bs := fun rest => by
  have hle : n ≤ (bs ++ rest).length := by
    rw [List.length_append]
    omega
  have hrun : (Decode.take n).run (bs ++ rest) =
      some ((bs ++ rest).take n, (bs ++ rest).drop n) := if_pos hle
  rw [hrun, List.take_left' h, List.drop_left' h]

theorem array {n : Nat} (bs : { bs : List UInt8 // bs.length = n }) : Reads (array n) bs.1 bs :=
  fun rest => by
  have hle : n ≤ (bs.1 ++ rest).length := by
    rw [List.length_append, bs.2]
    omega
  have hrun : (Decode.array n).run (bs.1 ++ rest) =
      some (⟨(bs.1 ++ rest).take n, List.length_take_of_le hle⟩, (bs.1 ++ rest).drop n) :=
    dif_pos hle
  simp only [hrun, List.take_left' bs.2, List.drop_left' bs.2]

theorem number {k n : Nat} (h : n < 256 ^ k) : Reads (number k) (leBytes k n) n := by
  have hread := (take (length_leBytes k n)).map ofLE
  rwa [ofLE_leBytes, Nat.mod_eq_of_lt h] at hread

theorem check {p : Prop} [Decidable p] (h : p) : Reads (check p) [] () := fun _ => if_pos h

end Reads

/-- Whatever the reader takes off is the encoding of the value it gives. -/
def Inverts (d : Reader α) (encode : α → List UInt8) : Prop :=
  ∀ {bs a rest}, d.run bs = some (a, rest) → bs = encode a ++ rest

theorem inverts_array (n : Nat) : Inverts (array n) Subtype.val := by
  intro bs a rest h
  obtain ⟨hle, h⟩ : ∃ hle : n ≤ bs.length, _ := Option.dite_none_right_eq_some.mp h
  cases h
  exact (List.take_append_drop n bs).symm

/-- A number that is put into a type with room for it can be written out again. -/
theorem inverts_number {k : Nat} {f : Nat → α} {g : α → Nat} (hf : ∀ n < 256 ^ k, g (f n) = n) :
    Inverts (f <$> number k) fun a => leBytes k (g a) := by
  intro bs a rest h
  obtain ⟨⟨n, _⟩, hn, h⟩ := Option.bind_eq_some_iff.mp h
  obtain ⟨⟨bs', _⟩, htake, hn⟩ := Option.bind_eq_some_iff.mp hn
  obtain ⟨hle, htake⟩ := Option.ite_none_right_eq_some.mp htake
  cases h
  cases hn
  cases htake
  have hlt := ofLE_lt (bs.take k)
  have hback := leBytes_ofLE (bs.take k)
  rw [List.length_take_of_le hle] at hlt hback
  simp only [hf _ hlt, hback, List.take_append_drop]

end Decode
