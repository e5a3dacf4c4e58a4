import Backpressure.Config.Decode
import Mathlib.Data.List.Permutation

/-!
# What settings are read from

All settings are records of two fields, each with a default. A form says what such a record is read
from: an object, where a field that is given overwrites its default and one that is missing or not
known changes nothing, or a list of the first fields in their order. Whatever has the form of some
settings is read as these settings, and an object has it as soon as the fields that are known hold
what they should.
-/

namespace Backpressure

/-- A value is a natural number in the range of what is wanted. -/
inductive Value.IsNumber (wanted : Wanted) : Value → Nat → Prop
  | int {number : Nat} (bounded : number < wanted.bound) : IsNumber wanted (.int number) number

theorem Value.IsNumber.toNumber {wanted : Wanted} {value : Value} {number : Nat}
    (h : value.IsNumber wanted number) : value.toNumber wanted = .ok number := by
  obtain ⟨hbounded⟩ := h
  exact if_pos ⟨Int.natCast_nonneg number, Int.ofNat_lt.2 hbounded⟩

/-- A value is a duration: its seconds and nanoseconds by name in any order, or a list of the two.
Nanoseconds that fill seconds carry. -/
inductive Value.IsDuration : Value → Duration → Prop
  | object {fields : List (String × Value)} {seconds nanos : Value} {s n : Nat} {d : Duration}
      (fields_perm : fields.Perm [("secs", seconds), ("nanos", nanos)])
      (seconds_is : seconds.IsNumber .word64 s) (nanos_is : nanos.IsNumber .word32 n)
      (sum : d.nanos = s * nanosPerSecond + n) : IsDuration (.object fields) d
  | list {seconds nanos : Value} {s n : Nat} {d : Duration}
      (seconds_is : seconds.IsNumber .word64 s) (nanos_is : nanos.IsNumber .word32 n)
      (sum : d.nanos = s * nanosPerSecond + n) : IsDuration (.list [seconds, nanos]) d

namespace Duration

theorem ofParts?_eq_some {seconds nanos : Nat} {d : Duration}
    (h : d.nanos = seconds * nanosPerSecond + nanos) : ofParts? seconds nanos = some d := by
  have hrange : seconds * nanosPerSecond + nanos < 18446744073709551616 * nanosPerSecond :=
    h ▸ d.nanos_lt
  rw [ofParts?, dif_pos hrange]
  cases d
  cases h
  rfl

theorem ofParts_eq_ok {seconds nanos : Nat} {d : Duration}
    (h : d.nanos = seconds * nanosPerSecond + nanos) : ofParts seconds nanos = .ok d := by
  -- opened as a whole function: at its arguments it would be run against the bound of durations
  generalize hopen : ofParts = opened
  delta ofParts at hopen
  subst hopen
  simp only [ofParts?_eq_some h]

/-- Seconds and nanoseconds are read in both orders. -/
theorem readParts_eq_ok {fields : List (String × Value)} {seconds nanos : Value} {s n : Nat}
    (hperm : fields.Perm [("secs", seconds), ("nanos", nanos)])
    (hseconds : seconds.IsNumber .word64 s) (hnanos : nanos.IsNumber .word32 n) :
    readParts fields (none, none) = .ok (some s, some n) := by
  obtain rfl | rfl := List.perm_pair.1 hperm
  all_goals
    simp only [readParts, String.reduceEq, if_true, if_false, hseconds.toNumber, hnanos.toNumber]
    rfl

theorem ofValue_eq_ok {value : Value} {d : Duration} (h : value.IsDuration d) :
    ofValue value = .ok d := by
  cases h with
  | object hperm hseconds hnanos hsum =>
    rw [ofValue, readParts_eq_ok hperm hseconds hnanos]
    exact (pure_bind _ _).trans (ofParts_eq_ok hsum)
  | list hseconds hnanos hsum =>
    rw [ofValue, hseconds.toNumber, hnanos.toNumber]
    refine (pure_bind _ _).trans ((pure_bind _ _).trans ?_)
    rw [ofParts_eq_ok hsum]
    rfl

end Duration

/-! ### Fields -/

/-- A field of a record: its name, what a value that is given for it stands for, and what it is
where none is given. -/
structure FieldForm (α : Type) where
  name : String
  Stands : Value → α → Prop
  default : α

namespace FieldForm

variable {α : Type} {field : FieldForm α} {fields rest : List (String × Value)} {name : String}
  {value : Value} {before after : α}

/-- What an object makes of a field: it overwrites a field that it gives, and leaves alone one that
is missing in it. -/
inductive Overwritten (field : FieldForm α) (fields : List (String × Value)) (before : α) : α → Prop
  | given {value : Value} {after : α} (mem : (field.name, value) ∈ fields)
      (stands : field.Stands value after) : Overwritten field fields before after
  | missing (absent : field.name ∉ fields.map Prod.fst) : Overwritten field fields before before

/-- Whatever an object gives for a field stands for something. -/
def WellTyped (field : FieldForm α) (fields : List (String × Value)) : Prop :=
  ∀ value, (field.name, value) ∈ fields → ∃ x, field.Stands value x

theorem WellTyped.overwritten (h : field.WellTyped fields) (before : α) :
    ∃ after, field.Overwritten fields before after := by
  by_cases hgiven : field.name ∈ fields.map Prod.fst
  · obtain ⟨⟨name, value⟩, hmem, rfl⟩ := List.mem_map.1 hgiven
    obtain ⟨after, hstands⟩ := h value hmem
    exact ⟨after, .given hmem hstands⟩
  · exact ⟨before, .missing hgiven⟩

/-- The order of an object does not matter. -/
theorem Overwritten.perm {fields' : List (String × Value)} (hperm : fields.Perm fields')
    (h : field.Overwritten fields before after) : field.Overwritten fields' before after := by
  cases h with
  | given hmem hstands => exact .given (hperm.mem_iff.1 hmem) hstands
  | missing habsent => exact .missing (mt ((hperm.map Prod.fst).mem_iff.2) habsent)

theorem Overwritten.eq_of_nil (h : field.Overwritten [] before after) : after = before := by
  cases h with
  | given hmem => cases hmem
  | missing => rfl

/-- A field with another name changes nothing. -/
theorem Overwritten.of_cons_ne (h : field.Overwritten ((name, value) :: rest) before after)
    (hne : name ≠ field.name) : field.Overwritten rest before after := by
  cases h with
  | given hmem hstands =>
    refine .given ((List.mem_cons.1 hmem).resolve_left fun heq => hne ?_) hstands
    exact (congrArg Prod.fst heq).symm
  | missing habsent => exact .missing fun hmem => habsent (List.mem_cons_of_mem _ hmem)

/-- A field that is given is given once, and the rest of the object leaves it alone. -/
theorem Overwritten.of_cons_self
    (h : field.Overwritten ((field.name, value) :: rest) before after)
    (honce : field.name ∉ rest.map Prod.fst) :
    field.Stands value after ∧ field.Overwritten rest after after := by
  cases h with
  | given hmem hstands =>
    cases hmem with
    | head => exact ⟨hstands, .missing honce⟩
    | tail _ hmem => exact absurd (List.mem_map_of_mem hmem) honce
  | missing habsent => exact absurd List.mem_cons_self habsent

end FieldForm

/-! ### Records -/

/-- A record of two fields, which have different names. -/
structure RecordForm (α β Record : Type) where
  first : FieldForm α
  second : FieldForm β
  make : α → β → Record
  distinct : first.name ≠ second.name

namespace RecordForm

variable {α β Record : Type} {form : RecordForm α β Record} {fields : List (String × Value)}
  {elements : List Value} {value : Value} {record : Record}

/-- The names of the fields in their order. -/
def names (form : RecordForm α β Record) : List String := [form.first.name, form.second.name]

/-- The record with nothing but defaults. -/
def default (form : RecordForm α β Record) : Record :=
  form.make form.first.default form.second.default

/-- An object makes this record of the defaults. -/
inductive Overwritten (form : RecordForm α β Record) (fields : List (String × Value)) :
    Record → Prop
  | intro {x : α} {y : β} (first : form.first.Overwritten fields form.first.default x)
      (second : form.second.Overwritten fields form.second.default y) :
      Overwritten form fields (form.make x y)

/-- What a value of a record stands for. The names in an object are different, and a list of some
elements is as good as an object that gives them the first of the names. -/
inductive Stands (form : RecordForm α β Record) : Value → Record → Prop
  | object {fields : List (String × Value)} {record : Record}
      (names_nodup : (fields.map Prod.fst).Nodup) (overwritten : form.Overwritten fields record) :
      Stands form (.object fields) record
  | list {elements : List Value} {record : Record} (short : elements.length ≤ form.names.length)
      (overwritten : form.Overwritten (form.names.zip elements) record) :
      Stands form (.list elements) record

/-- Whatever an object gives for the two fields stands for something. -/
structure WellTyped (form : RecordForm α β Record) (fields : List (String × Value)) : Prop where
  first : form.first.WellTyped fields
  second : form.second.WellTyped fields

/-- A reader reads a record of this form: it reads what stands for a record as this record, an
object of well-typed fields stands for one, and a list for the same one as any object of its
elements. -/
structure IsReadBy (form : RecordForm α β Record) (read : Value → Except DecodeError Record) :
    Prop where
  read_eq {value : Value} {record : Record} (stands : form.Stands value record) :
    read value = .ok record
  understood {fields : List (String × Value)} (names_nodup : (fields.map Prod.fst).Nodup)
    (typed : form.WellTyped fields) : ∃ record, form.Stands (.object fields) record
  list_eq {elements : List Value} {fields : List (String × Value)}
    (short : elements.length ≤ form.names.length) (perm : fields.Perm (form.names.zip elements))
    (typed : form.WellTyped fields) :
    ∃ record, form.Stands (.object fields) record ∧ read (.object fields) = .ok record ∧
      read (.list elements) = .ok record

theorem WellTyped.overwritten (h : form.WellTyped fields) :
    ∃ record, form.Overwritten fields record := by
  obtain ⟨x, hx⟩ := h.first.overwritten form.first.default
  obtain ⟨y, hy⟩ := h.second.overwritten form.second.default
  exact ⟨_, hx, hy⟩

theorem Overwritten.perm {fields' : List (String × Value)} (hperm : fields.Perm fields')
    (h : form.Overwritten fields record) : form.Overwritten fields' record := by
  obtain ⟨hx, hy⟩ := h
  exact ⟨hx.perm hperm, hy.perm hperm⟩

/-- A list gives its elements to different names. -/
theorem zip_nodup (form : RecordForm α β Record) (elements : List Value) :
    ((form.names.zip elements).map Prod.fst).Nodup := by
  rcases elements with _ | ⟨_, _ | ⟨_, _⟩⟩ <;> simp [names, form.distinct]

/-- `put` overwrites the fields of a form by their names, and leaves alone what it does not know. -/
structure Put (form : RecordForm α β Record)
    (put : Record → String → Value → Except DecodeError Record) : Prop where
  first {value : Value} {x x' : α} {y : β} (stands : form.first.Stands value x') :
    put (form.make x y) form.first.name value = .ok (form.make x' y)
  second {value : Value} {x : α} {y y' : β} (stands : form.second.Stands value y') :
    put (form.make x y) form.second.name value = .ok (form.make x y')
  unknown {name : String} {value : Value} {record : Record} (first : name ≠ form.first.name)
    (second : name ≠ form.second.name) : put record name value = .ok record

namespace Put

variable {put : Record → String → Value → Except DecodeError Record} (hput : form.Put put)
include hput

/-- One field after the other makes of a record what the object makes of its fields. -/
theorem foldlM_eq_ok {x x' : α} {y y' : β} (hnodup : (fields.map Prod.fst).Nodup)
    (hx : form.first.Overwritten fields x x') (hy : form.second.Overwritten fields y y') :
    fields.foldlM (fun record field => put record field.1 field.2) (form.make x y) =
      .ok (form.make x' y') := by
  -- what the fields so far have made of the record is what the rest of them overwrites
  induction fields generalizing x y with
  | nil =>
    rw [hx.eq_of_nil, hy.eq_of_nil]
    rfl
  | cons field rest ih =>
    obtain ⟨name, value⟩ := field
    obtain ⟨honce, hrest⟩ := List.nodup_cons.1 hnodup
    rw [List.foldlM_cons]
    by_cases hfirst : name = form.first.name
    · subst hfirst
      obtain ⟨hstands, hx⟩ := hx.of_cons_self honce
      rw [hput.first hstands]
      exact ih hrest hx (hy.of_cons_ne form.distinct)
    · by_cases hsecond : name = form.second.name
      · subst hsecond
        obtain ⟨hstands, hy⟩ := hy.of_cons_self honce
        rw [hput.second hstands]
        exact ih hrest (hx.of_cons_ne hfirst) hy
      · rw [hput.unknown hfirst hsecond]
        exact ih hrest (hx.of_cons_ne hfirst) (hy.of_cons_ne hsecond)

theorem toRecord_eq_ok (name : String) (h : form.Stands value record) :
    Value.toRecord name form.default form.names put value = .ok record := by
  cases h with
  | object hnodup hover =>
    obtain ⟨hx, hy⟩ := hover
    exact hput.foldlM_eq_ok hnodup hx hy
  | list hshort hover =>
    obtain ⟨hx, hy⟩ := hover
    rw [Value.toRecord, default, hput.foldlM_eq_ok (form.zip_nodup _) hx hy, Value.checkLength,
      if_neg (Nat.not_lt.2 hshort)]
    rfl

/-- A reader that overwrites the defaults by such a `put` reads the form. -/
theorem isReadBy (name : String) :
    form.IsReadBy (Value.toRecord name form.default form.names put) where
  read_eq := hput.toRecord_eq_ok name
  understood hnodup htyped := by
    obtain ⟨record, hover⟩ := htyped.overwritten
    exact ⟨record, .object hnodup hover⟩
  list_eq hshort hperm htyped := by
    obtain ⟨record, hover⟩ := htyped.overwritten
    have hnodup := (hperm.map Prod.fst).nodup_iff.2 (form.zip_nodup _)
    have hobject := Stands.object hnodup hover
    exact ⟨record, hobject, hput.toRecord_eq_ok name hobject,
      hput.toRecord_eq_ok name (.list hshort (hover.perm hperm))⟩

end Put

end RecordForm

/-! ### The settings of the primitives -/

/-- What has been read goes into its place. -/
theorem return_eq_ok {α β : Type} {read : Except DecodeError α} {x : α} (h : read = .ok x)
    (place : α → β) : (do return place (← read)) = (.ok (place x) : Except DecodeError β) := by
  simp only [h, bind_pure_comp, Except.map_ok]

/-- The settings of a channel. -/
def ChannelConfig.form : RecordForm Nat Nat ChannelConfig where
  first := { name := "capacity", Stands := Value.IsNumber .size, default := capacity {} }
  second :=
    { name := "error_capacity", Stands := Value.IsNumber .size, default := errorCapacity {} }
  make capacity errorCapacity := { capacity, errorCapacity }
  distinct := by decide

theorem ChannelConfig.put_form : form.Put put where
  first hstands := (if_pos rfl).trans (return_eq_ok (Value.IsNumber.toNumber hstands) _)
  second hstands := (if_neg form.distinct.symm).trans
    ((if_pos rfl).trans (return_eq_ok (Value.IsNumber.toNumber hstands) _))
  unknown hfirst hsecond := (if_neg hfirst).trans (if_neg hsecond)

theorem ChannelConfig.isReadBy_ofValue : form.IsReadBy ofValue := put_form.isReadBy "ChannelConfig"

/-- The settings of a buffer. -/
def BufferConfig.form : RecordForm Nat Duration BufferConfig where
  first := { name := "limit", Stands := Value.IsNumber .size, default := limit {} }
  second := { name := "interval", Stands := Value.IsDuration, default := interval {} }
  make limit interval := { limit, interval }
  distinct := by decide

theorem BufferConfig.put_form : form.Put put where
  first hstands := (if_pos rfl).trans (return_eq_ok (Value.IsNumber.toNumber hstands) _)
  second hstands := (if_neg form.distinct.symm).trans
    ((if_pos rfl).trans (return_eq_ok (Duration.ofValue_eq_ok hstands) _))
  unknown hfirst hsecond := (if_neg hfirst).trans (if_neg hsecond)

theorem BufferConfig.isReadBy_ofValue : form.IsReadBy ofValue := put_form.isReadBy "BufferConfig"

/-- The settings of a token bucket. -/
def RateConfig.form : RecordForm Nat Duration RateConfig where
  first := { name := "threshold", Stands := Value.IsNumber .word64, default := threshold {} }
  second := { name := "period", Stands := Value.IsDuration, default := period {} }
  make threshold period := { threshold, period }
  distinct := by decide

theorem RateConfig.put_form : form.Put put where
  first hstands := (if_pos rfl).trans (return_eq_ok (Value.IsNumber.toNumber hstands) _)
  second hstands := (if_neg form.distinct.symm).trans
    ((if_pos rfl).trans (return_eq_ok (Duration.ofValue_eq_ok hstands) _))
  unknown hfirst hsecond := (if_neg hfirst).trans (if_neg hsecond)

theorem RateConfig.isReadBy_ofValue : form.IsReadBy ofValue :=
  put_form.isReadBy "RateLimiterConfig"

/-- The settings of a writer, whose fields are records themselves. -/
def WriterConfig.form : RecordForm ChannelConfig BufferConfig WriterConfig where
  first := { name := "channel", Stands := ChannelConfig.form.Stands, default := channel {} }
  second := { name := "buffer", Stands := BufferConfig.form.Stands, default := buffer {} }
  make channel buffer := { channel, buffer }
  distinct := by decide

theorem WriterConfig.put_form : form.Put put where
  first hstands := (if_pos rfl).trans
    (return_eq_ok (ChannelConfig.isReadBy_ofValue.read_eq hstands) _)
  second hstands := (if_neg form.distinct.symm).trans
    ((if_pos rfl).trans (return_eq_ok (BufferConfig.isReadBy_ofValue.read_eq hstands) _))
  unknown hfirst hsecond := (if_neg hfirst).trans (if_neg hsecond)

theorem WriterConfig.isReadBy_ofValue : form.IsReadBy ofValue := put_form.isReadBy "WriterConfig"

end Backpressure
