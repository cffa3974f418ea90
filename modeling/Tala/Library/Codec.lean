import Mathlib.Algebra.Order.Ring.Int
import Mathlib.Data.List.Basic

/-!
# `Library.Codec` — decoders that read what encoders wrote

A decoder takes items from the front of its input and keeps the offset for its errors. `Reads decoder
items value` says that it takes exactly these items, whatever follows them, and gives this value; the rules
`Reads.bind`, `Reads.many` and the like put the round trip of a format together from those of its parts.

`Yields decoder P` is the other direction: whatever was returned, the items that were taken are such. A
format is canonical when the items that were taken are those that an encoder writes for the value.

`Writes maximum writer fits items` says what a writer with a limit appends and when it fails.
-/

namespace Tala.Library.Codec

variable {Item Failure α β : Type}

structure Input (Item : Type) where
  rest : List Item
  offset : Nat

abbrev Decoder (Item Failure α : Type) := StateT (Input Item) (Except Failure) α

namespace Decoder

def fail (failure : Nat → Failure) : Decoder Item Failure α :=
  fun input => .error (failure input.offset)

def require (condition : Bool) (failure : Nat → Failure) : Decoder Item Failure Unit :=
  if condition then pure () else fail failure

/-- The next items, so many of them. -/
def take (count : Nat) (missing : Nat → Failure) : Decoder Item Failure (List Item) := fun input =>
  if (input.rest.take count).length = count then
    .ok (input.rest.take count, ⟨input.rest.drop count, input.offset + count⟩)
  else .error (missing input.offset)

def many : Nat → Decoder Item Failure α → Decoder Item Failure (List α)
  | 0, _ => pure []
  | count + 1, decoder => do
      let first ← decoder
      let others ← many count decoder
      pure (first :: others)

end Decoder

open Decoder

/-- Encodings of values one after the other. -/
def encodeAll (encode : α → Except Failure (List Item)) : List α → Except Failure (List Item)
  | [] => .ok []
  | value :: values => do
      let first ← encode value
      let others ← encodeAll encode values
      .ok (first ++ others)

theorem bind_eq_ok {x : Except Failure α} {f : α → Except Failure β} {b : β} :
    x >>= f = .ok b ↔ ∃ a, x = .ok a ∧ f a = .ok b := by
  cases x with
  | error failure =>
      constructor
      · intro h
        cases h
      · rintro ⟨a, h, _⟩
        cases h
  | ok a =>
      constructor
      · intro h
        exact ⟨a, rfl, h⟩
      · rintro ⟨a', h, h'⟩
        cases h
        exact h'

/-! ## Reading back -/

/-- The decoder takes these items, whatever follows, and gives this value. -/
def Reads (decoder : Decoder Item Failure α) (items : List Item) (value : α) : Prop :=
  ∀ rest offset, decoder ⟨items ++ rest, offset⟩ = .ok (value, ⟨rest, offset + items.length⟩)

namespace Reads

theorem pure (value : α) : Reads (Pure.pure value : Decoder Item Failure α) [] value := by
  intro rest offset
  rfl

theorem bind {decoder : Decoder Item Failure α} {next : α → Decoder Item Failure β}
    {items others : List Item} {a : α} {b : β} (h : Reads decoder items a)
    (hnext : Reads (next a) others b) : Reads (decoder >>= next) (items ++ others) b := by
  intro rest offset
  show (decoder ⟨items ++ others ++ rest, offset⟩ >>= fun p => next p.1 p.2) = _
  rw [List.append_assoc, h, List.length_append, ← Nat.add_assoc]
  exact hnext rest _

/-- A step that takes nothing. -/
theorem step {decoder : Decoder Item Failure α} {next : α → Decoder Item Failure β}
    {others : List Item} {a : α} {b : β} (h : Reads decoder [] a) (hnext : Reads (next a) others b) :
    Reads (decoder >>= next) others b :=
  h.bind hnext

variable {decoder : Decoder Item Failure α} {items : List Item}

/-- A step that takes one item. -/
theorem item {next : α → Decoder Item Failure β} {i : Item}
    {others : List Item} {a : α} {b : β} (h : Reads decoder [i] a) (hnext : Reads (next a) others b) :
    Reads (decoder >>= next) (i :: others) b :=
  h.bind hnext

/-- The last part of a decoder that assembles its value. -/
theorem last {decoder : Decoder Item Failure α} {make : α → β} {items : List Item} {a : α}
    (h : Reads decoder items a) : Reads (decoder >>= fun a => Pure.pure (make a)) items (make a) := by
  have hbind := @bind _ _ _ _ decoder (fun a => Pure.pure (make a)) _ _ _ _ h (Reads.pure (make a))
  rwa [List.append_nil] at hbind

theorem require {condition : Bool} (failure : Nat → Failure) (h : condition = true) :
    Reads (Decoder.require condition failure : Decoder Item Failure Unit) [] () := by
  intro rest offset
  rw [Decoder.require, if_pos h]
  rfl

/-- A part that is assembled once it has been checked. -/
theorem checked {decoder : Decoder Item Failure α} {condition : α → Bool} {failure : Nat → Failure}
    {make : α → β} {items : List Item} {a : α} (h : Reads decoder items a) (hcondition : condition a = true) :
    Reads (decoder >>= fun a => Decoder.require (condition a) failure >>= fun _ => Pure.pure (make a)) items
      (make a) := by
  have hbind := @bind _ _ _ _ decoder
    (fun a => Decoder.require (condition a) failure >>= fun _ => Pure.pure (make a)) _ _ _ _ h
    ((Reads.require _ hcondition).step (Reads.pure (make a)))
  rwa [List.append_nil] at hbind

theorem take {count : Nat} (missing : Nat → Failure) (h : items.length = count) :
    Reads (Decoder.take count missing) items items := by
  intro rest offset
  unfold Decoder.take
  dsimp only
  rw [List.take_left' h, if_pos h, List.drop_left' h, h]

/-- One more value in front of others. -/
theorem cons {others : Decoder Item Failure (List β)} {head tail : Except Failure (List Item)} {bound : Nat}
    {value : β} {values : List β} {decoder : Decoder Item Failure β}
    (h : (head >>= fun first => tail >>= fun rest => .ok (first ++ rest)) = .ok items) (hbound : items.length ≤ bound)
    (hfirst : ∀ {part}, head = .ok part → part.length ≤ bound → Reads decoder part value)
    (hothers : ∀ {part}, tail = .ok part → part.length ≤ bound → Reads others part values) :
    Reads (decoder >>= fun first => others >>= fun rest => Pure.pure (first :: rest)) items (value :: values) := by
  obtain ⟨first, hhead, h⟩ := bind_eq_ok.mp h
  obtain ⟨rest, htail, h⟩ := bind_eq_ok.mp h
  cases h
  rw [List.length_append] at hbound
  exact (hfirst hhead (by omega)).bind (hothers htail (by omega)).last

/-- As many values as were encoded, each as its decoder sees it. -/
theorem many_map {encode : α → Except Failure (List Item)} {decoder : Decoder Item Failure β}
    {view : α → β} {values : List α} {items : List Item} (h : encodeAll encode values = .ok items)
    (hread : ∀ value ∈ values, ∀ part, encode value = .ok part → part.length ≤ items.length →
      Reads decoder part (view value)) :
    Reads (Decoder.many values.length decoder) items (values.map view) := by
  induction values generalizing items with
  | nil =>
      cases h
      exact Reads.pure []
  | cons value values ih =>
      obtain ⟨first, hfirst, h⟩ := bind_eq_ok.mp h
      obtain ⟨others, hothers, h⟩ := bind_eq_ok.mp h
      cases h
      have hvalue := hread value List.mem_cons_self first hfirst (by rw [List.length_append]; omega)
      refine hvalue.bind (ih hothers fun v hv part hpart hle => ?_).last
      refine hread v (List.mem_cons_of_mem _ hv) part hpart ?_
      rw [List.length_append]
      omega

theorem many {encode : α → Except Failure (List Item)} {values : List α} (h : encodeAll encode values = .ok items)
    (hread : ∀ value ∈ values, ∀ part, encode value = .ok part → part.length ≤ items.length →
      Reads decoder part value) : Reads (Decoder.many values.length decoder) items values := by
  have hmany := @many_map _ _ _ _ encode decoder id _ _ h hread
  rwa [List.map_id] at hmany

/-- The whole input. -/
theorem run {value : α} (h : Reads decoder items value) : decoder ⟨items, 0⟩ = .ok (value, ⟨[], items.length⟩) := by
  have hrun := h [] 0
  rwa [List.append_nil, Nat.zero_add] at hrun

end Reads

/-- As many values as there are encodings, one after the other. -/
theorem Reads.flatMap {encode : α → List Item} {decoder : Decoder Item Failure β} {view : α → β}
    {values : List α} (h : ∀ value ∈ values, Reads decoder (encode value) (view value)) :
    Reads (Decoder.many values.length decoder) (values.flatMap encode) (values.map view) := by
  induction values with
  | nil => exact Reads.pure []
  | cons value values ih =>
      have hothers := ih fun other hother => h other (List.mem_cons_of_mem value hother)
      rw [List.flatMap_cons]
      exact (h value List.mem_cons_self).bind hothers.last

/-! ## What was taken -/

/-- Whatever the decoder returns, it took such items from the front of its input. -/
def Yields (decoder : Decoder Item Failure α) (P : α → List Item → Prop) : Prop :=
  ∀ input value next, decoder input = .ok (value, next) →
    ∃ items, P value items ∧ input.rest = items ++ next.rest

namespace Yields

variable {P : α → List Item → Prop} {items : List Item}

theorem pure {value : α} (h : P value []) : Yields (Pure.pure value : Decoder Item Failure α) P := by
  intro input value' next hrun
  cases hrun
  exact ⟨[], h, rfl⟩

theorem fail (P : α → List Item → Prop) (failure : Nat → Failure) :
    Yields (Decoder.fail failure : Decoder Item Failure α) P := by
  intro input value next hrun
  cases hrun

theorem bind {decoder : Decoder Item Failure α} {next : α → Decoder Item Failure β}
    {P : α → List Item → Prop} {Q : β → List Item → Prop} (h : Yields decoder P)
    (hnext : ∀ a items, P a items → Yields (next a) fun b others => Q b (items ++ others)) :
    Yields (decoder >>= next) Q := by
  intro input value last hrun
  obtain ⟨⟨a, middle⟩, ha, hb⟩ := bind_eq_ok.mp hrun
  obtain ⟨items, hitems, hinput⟩ := h input a middle ha
  obtain ⟨others, hothers, hmiddle⟩ := hnext a items hitems middle value last hb
  refine ⟨items ++ others, hothers, ?_⟩
  rw [hinput, hmiddle, List.append_assoc]

/-- A condition that holds whenever the decoder goes on. -/
theorem require {condition : Bool} {failure : Nat → Failure} {next : Unit → Decoder Item Failure β}
    {Q : β → List Item → Prop} (h : condition = true → Yields (next ()) Q) :
    Yields (Decoder.require condition failure >>= next) Q := by
  cases condition with
  | false =>
      intro input value last hrun
      cases hrun
  | true =>
      intro input value last hrun
      exact h rfl input value last hrun

theorem weaken {decoder : Decoder Item Failure α} {Q : α → List Item → Prop} (h : Yields decoder P)
    (himp : ∀ value items, P value items → Q value items) : Yields decoder Q := by
  intro input value next hrun
  obtain ⟨items, hitems, hinput⟩ := h input value next hrun
  exact ⟨items, himp value items hitems, hinput⟩

/-- The last part of a decoder that assembles its value. -/
theorem last {decoder : Decoder Item Failure α} {make : α → β} {P : α → List Item → Prop}
    {Q : β → List Item → Prop} (h : Yields decoder P) (himp : ∀ a items, P a items → Q (make a) items) :
    Yields (decoder >>= fun a => Pure.pure (make a)) Q := by
  apply h.bind
  intro a items ha
  apply Yields.pure
  rw [List.append_nil]
  exact himp a items ha

theorem many {decoder : Decoder Item Failure β} {fits : β → Prop} {encode : β → List Item}
    (h : Yields decoder fun value items => fits value ∧ items = encode value) (count : Nat) :
    Yields (Decoder.many count decoder) fun values items =>
      values.length = count ∧ (∀ value ∈ values, fits value) ∧ items = values.flatMap encode := by
  induction count with
  | zero =>
      apply Yields.pure
      refine ⟨rfl, ?_, rfl⟩
      intro value hvalue
      cases hvalue
  | succ count ih =>
      apply h.bind
      rintro first _ ⟨hfirst, rfl⟩
      apply ih.last
      rintro others _ ⟨rfl, hothers, rfl⟩
      exact ⟨rfl, List.forall_mem_cons.mpr ⟨hfirst, hothers⟩, List.flatMap_cons.symm⟩

/-- As many values as there are encodings, as far as their items are encodings. -/
theorem encodeAll {decoder : Decoder Item Failure β} {fits : β → Prop} {canonical : Prop}
    {encode : β → Except Failure (List Item)}
    (h : Yields decoder fun value items => fits value ∧ (canonical → encode value = .ok items)) (count : Nat) :
    Yields (Decoder.many count decoder) fun values items =>
      values.length = count ∧ (∀ value ∈ values, fits value) ∧
        (canonical → Codec.encodeAll encode values = .ok items) := by
  induction count with
  | zero =>
      apply Yields.pure
      refine ⟨rfl, ?_, fun _ => rfl⟩
      intro value hvalue
      cases hvalue
  | succ count ih =>
      apply h.bind
      rintro first items ⟨hfirst, hencode⟩
      apply ih.last
      rintro values others ⟨rfl, hothers, hencodes⟩
      refine ⟨rfl, List.forall_mem_cons.mpr ⟨hfirst, hothers⟩, ?_⟩
      intro hcanonical
      apply bind_eq_ok.mpr
      refine ⟨items, hencode hcanonical, ?_⟩
      apply bind_eq_ok.mpr
      exact ⟨others, hencodes hcanonical, rfl⟩

/-- The whole input. -/
theorem run {decoder : Decoder Item Failure α} (h : Yields decoder P)
    {value : α} {next : Input Item} (hrun : decoder ⟨items, 0⟩ = .ok (value, next))
    (hend : next.rest = []) : P value items := by
  obtain ⟨taken, htaken, hitems⟩ := h _ value next hrun
  rw [hend, List.append_nil] at hitems
  rwa [show items = taken from hitems]

end Yields

/-! ## Writers -/

/-- A writer appends to what was written before. -/
abbrev Writer (Item Failure α : Type) := StateT (List Item) (Except Failure) α

namespace Writer

def fail (failure : Nat → Failure) : Writer Item Failure Unit := fun written => .error (failure written.length)

/-- Append items as far as there is room for them. -/
def append (maximum : Nat) (items : List Item) (full : Nat → Failure) : Writer Item Failure Unit :=
  fun written =>
    if written.length + items.length > maximum then .error (full written.length)
    else .ok ((), written ++ items)

def each (write : α → Writer Item Failure Unit) : List α → Writer Item Failure Unit
  | [] => pure ()
  | value :: values => do
      write value
      each write values

end Writer

/-- The writer appends these items if the value fits and there is room for them, and fails otherwise. -/
def Writes (maximum : Nat) (writer : Writer Item Failure Unit) (fits : Prop) (items : List Item) : Prop :=
  ∀ written result, written.length ≤ maximum →
    (writer written = .ok ((), result) ↔ fits ∧ result = written ++ items ∧ result.length ≤ maximum)

namespace Writes

variable {maximum : Nat}

theorem nothing : Writes maximum (Pure.pure () : Writer Item Failure Unit) True [] := by
  intro written result hroom
  rw [List.append_nil]
  constructor
  · intro h
    cases h
    exact ⟨trivial, rfl, hroom⟩
  · rintro ⟨_, rfl, _⟩
    rfl

theorem fail (failure : Nat → Failure) (items : List Item) :
    Writes maximum (Writer.fail failure) False items := by
  intro written result _
  constructor
  · intro h
    cases h
  · rintro ⟨hfalse, _⟩
    exact hfalse.elim

theorem append (items : List Item) (full : Nat → Failure) :
    Writes maximum (Writer.append maximum items full) True items := by
  intro written result _
  unfold Writer.append
  split
  · next hfull =>
    constructor
    · intro h
      cases h
    · rintro ⟨_, rfl, hroom⟩
      rw [List.length_append] at hroom
      omega
  · next hroom =>
    constructor
    · intro h
      cases h
      refine ⟨trivial, rfl, ?_⟩
      rw [List.length_append]
      omega
    · rintro ⟨_, rfl, _⟩
      rfl

variable {writer : Writer Item Failure Unit}

theorem seq {writer' : Writer Item Failure Unit} {fits fits' : Prop} {items items' : List Item}
    (h : Writes maximum writer fits items) (h' : Writes maximum writer' fits' items') :
    Writes maximum (writer >>= fun _ => writer') (fits ∧ fits') (items ++ items') := by
  intro written result hroom
  constructor
  · intro hrun
    obtain ⟨⟨_, middle⟩, hfirst, hsecond⟩ := bind_eq_ok.mp hrun
    obtain ⟨hfits, rfl, hmiddle⟩ := (h written middle hroom).mp hfirst
    obtain ⟨hfits', rfl, hresult⟩ := (h' _ result hmiddle).mp hsecond
    exact ⟨⟨hfits, hfits'⟩, List.append_assoc _ _ _, hresult⟩
  · rintro ⟨⟨hfits, hfits'⟩, rfl, hresult⟩
    have hmiddle : (written ++ items).length ≤ maximum := by
      rw [List.length_append] at hresult ⊢
      rw [List.length_append] at hresult
      omega
    apply bind_eq_ok.mpr
    refine ⟨((), written ++ items), (h written _ hroom).mpr ⟨hfits, rfl, hmiddle⟩, ?_⟩
    apply (h' _ _ hmiddle).mpr
    refine ⟨hfits', ?_, hresult⟩
    rw [List.append_assoc]

/-- The same writer, with its condition in another form. -/
theorem congr {fits fits' : Prop} {items items' : List Item}
    (h : Writes maximum writer fits items) (hfits : fits ↔ fits') (hitems : fits' → items = items') :
    Writes maximum writer fits' items' := by
  intro written result hroom
  rw [h written result hroom, hfits]
  constructor
  · rintro ⟨hf, rfl, hlength⟩
    rw [hitems hf] at hlength ⊢
    exact ⟨hf, rfl, hlength⟩
  · rintro ⟨hf, rfl, hlength⟩
    rw [hitems hf]
    exact ⟨hf, rfl, hlength⟩

theorem each {write : α → Writer Item Failure Unit} {fits : α → Prop} {encode : α → List Item}
    {values : List α} (h : ∀ value ∈ values, Writes maximum (write value) (fits value) (encode value)) :
    Writes maximum (Writer.each write values) (∀ value ∈ values, fits value) (values.flatMap encode) := by
  induction values with
  | nil =>
      apply nothing.congr
      · simp
      · intro _
        rfl
  | cons value values ih =>
      have hothers := ih fun other hother => h other (List.mem_cons_of_mem value hother)
      apply ((h value List.mem_cons_self).seq hothers).congr
      · rw [List.forall_mem_cons]
      · intro _
        rw [List.flatMap_cons]

/-- A document that is written from its start. -/
theorem run {fits : Prop} {items result : List Item} (h : Writes maximum writer fits items) :
    writer [] = .ok ((), result) ↔ fits ∧ result = items ∧ items.length ≤ maximum := by
  rw [h [] result (Nat.zero_le maximum), List.nil_append]
  constructor
  · rintro ⟨hfits, rfl, hlength⟩
    exact ⟨hfits, rfl, hlength⟩
  · rintro ⟨hfits, rfl, hlength⟩
    exact ⟨hfits, rfl, hlength⟩

end Writes

/-! ## Numbers as octets -/

/-- Octets of a number, the least first. -/
def littleEndian : Nat → Nat → List UInt8
  | 0, _ => []
  | width + 1, value => UInt8.ofNat value :: littleEndian width (value / 256)

/-- The number that octets with the least first denote. -/
def ofLittleEndian : List UInt8 → Nat
  | [] => 0
  | octet :: octets => octet.toNat + 256 * ofLittleEndian octets

/-- The octets of a number without zeros at its greater end, the least first. -/
def octets (value : Nat) : List UInt8 :=
  if value = 0 then [] else UInt8.ofNat value :: octets (value / 256)
termination_by value

@[simp] theorem length_littleEndian (width value : Nat) : (littleEndian width value).length = width := by
  induction width generalizing value with
  | zero => rfl
  | succ width ih => exact congrArg (· + 1) (ih _)

theorem toNat_octet (value : Nat) : (UInt8.ofNat value).toNat = value % 256 := by
  simp [UInt8.toNat_ofNat']

theorem ofLittleEndian_littleEndian (width value : Nat) :
    ofLittleEndian (littleEndian width value) = value % 256 ^ width := by
  induction width generalizing value with
  | zero => simp [littleEndian, ofLittleEndian, Nat.mod_one]
  | succ width ih =>
      rw [littleEndian, ofLittleEndian, ih, toNat_octet, Nat.pow_succ', Nat.mod_mul]

theorem ofLittleEndian_lt (list : List UInt8) : ofLittleEndian list < 256 ^ list.length := by
  induction list with
  | nil => exact Nat.one_pos
  | cons octet list ih =>
      have hoctet := octet.toNat_lt
      rw [ofLittleEndian, List.length_cons, Nat.pow_succ']
      omega

theorem littleEndian_ofLittleEndian (list : List UInt8) :
    littleEndian list.length (ofLittleEndian list) = list := by
  induction list with
  | nil => rfl
  | cons octet list ih =>
      have hoctet := octet.toNat_lt
      have hlow : (octet.toNat + 256 * ofLittleEndian list) / 256 = ofLittleEndian list := by omega
      show UInt8.ofNat (octet.toNat + 256 * ofLittleEndian list)
        :: littleEndian list.length ((octet.toNat + 256 * ofLittleEndian list) / 256) = octet :: list
      rw [hlow, ih]
      congr 1
      apply UInt8.toNat_inj.mp
      rw [toNat_octet]
      omega

theorem ofLittleEndian_octets (value : Nat) : ofLittleEndian (octets value) = value := by
  induction value using octets.induct with
  | case1 => simp [octets, ofLittleEndian]
  | case2 value hne ih =>
      rw [octets, if_neg hne, ofLittleEndian, ih, toNat_octet]
      omega

/-- The greatest octet is not zero. -/
theorem octets_canonical {value : Nat} (octet : UInt8) (h : (octets value).getLast? = some octet) :
    octet ≠ 0 := by
  induction value using octets.induct with
  | case1 => simp [octets] at h
  | case2 value hne ih =>
      rw [octets, if_neg hne] at h
      by_cases hzero : value / 256 = 0
      · rw [hzero, octets, if_pos rfl] at h
        obtain rfl : UInt8.ofNat value = octet := by simpa using h
        intro hcontra
        have := congrArg UInt8.toNat hcontra
        rw [toNat_octet] at this
        have hnum : (0 : UInt8).toNat = 0 := rfl
        omega
      · have hrest : octets (value / 256) ≠ [] := by
          rw [octets, if_neg hzero]
          exact List.cons_ne_nil _ _
        rw [List.getLast?_cons_of_ne_nil hrest] at h
        exact ih h

/-- Octets whose greatest is not zero are those of their number. -/
theorem octets_ofLittleEndian {list : List UInt8} (h : ∀ octet, list.getLast? = some octet → octet ≠ 0) :
    octets (ofLittleEndian list) = list := by
  induction list with
  | nil => simp [octets, ofLittleEndian]
  | cons octet list ih =>
      have hoctet := octet.toNat_lt
      have hdigit : UInt8.ofNat (octet.toNat + 256 * ofLittleEndian list) = octet := by
        apply UInt8.toNat_inj.mp
        rw [toNat_octet]
        omega
      have hrest : (octet.toNat + 256 * ofLittleEndian list) / 256 = ofLittleEndian list := by omega
      have hlist : octets (ofLittleEndian list) = list := by
        apply ih
        intro last hlast
        apply h last
        rw [List.getLast?_cons_of_ne_nil (by rintro rfl; cases hlast)]
        exact hlast
      -- a number that is zero has no octets, so its only octet would be zero
      have hpositive : octet.toNat + 256 * ofLittleEndian list ≠ 0 := by
        intro hzero
        have hnil : list = [] := by
          rw [← hlist, show ofLittleEndian list = 0 by omega, octets, if_pos rfl]
        subst hnil
        apply h octet rfl
        apply UInt8.toNat_inj.mp
        show octet.toNat = 0
        omega
      rw [ofLittleEndian, octets, if_neg hpositive, hdigit, hrest, hlist]

/-- Reading octets with the greatest first, by shifting what was read before. -/
theorem foldl_octets (list : List UInt8) :
    list.reverse.foldl (fun result octet => result * 256 + octet.toNat) 0 = ofLittleEndian list := by
  induction list with
  | nil => rfl
  | cons octet list ih =>
      rw [List.reverse_cons, List.foldl_append, ih, List.foldl_cons, List.foldl_nil, ofLittleEndian]
      rw [Nat.mul_comm, Nat.add_comm]

end Tala.Library.Codec
