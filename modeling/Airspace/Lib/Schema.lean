import Mathlib.Data.List.Basic
import Mathlib.Logic.Equiv.Defs

/-! Models read from a document and written to one.

    A codec reads a value from a document, or says what is wrong with it and where, and writes one back. It
    carries its laws: what it reads is valid, a valid value is read back as it was written, and a failure
    names at least one error. The fields of a model are read from an object by their names, all of them
    even if one is wrong; a field that is missing takes its default, and a name that is no field is an
    error. The laws of a model follow from those of its fields. -/

namespace Airspace

/-- A document. -/
inductive Json (N : Type) where
  | null
  | bool (b : Bool)
  | num (x : N)
  | str (s : String)
  | arr (items : List (Json N))
  | obj (fields : List (String × Json N))

/-- One step into a document. -/
inductive LocStep where
  | field (name : String)
  | index (i : ℕ)
  deriving DecidableEq

/-- Where something is wrong, the type of the error, and the message of a model's own validator. -/
structure SchemaError where
  loc : List LocStep
  type : String
  message : Option String := none
  deriving DecidableEq

/-- What reading comes to. -/
abbrev Read (α : Type) := Except (List SchemaError) α

namespace Read

variable {α β : Type} {r : Read α} {r' : Read β} {es : List SchemaError}

/-- The errors of a reading, one step further out. -/
def within (step : LocStep) (r : Read α) : Read α :=
  r.mapError (List.map fun e => { e with loc := step :: e.loc })

/-- Both readings, with the errors of both. -/
def both (r : Read α) (r' : Read β) : Read (α × β) :=
  match r, r' with
  | .ok a, .ok b => .ok (a, b)
  | .ok _, .error es => .error es
  | .error es, .ok _ => .error es
  | .error es, .error es' => .error (es ++ es')

/-- The errors of a reading. -/
def errors : Read α → List SchemaError
  | .ok _ => []
  | .error es => es

theorem map_eq_ok_iff {f : α → β} {b : β} : r.map f = .ok b ↔ ∃ a, r = .ok a ∧ f a = b := by
  cases r <;> simp [Except.map]

theorem map_eq_error_iff {f : α → β} : r.map f = .error es ↔ r = .error es := by
  cases r <;> simp [Except.map]

theorem within_eq_ok_iff {step : LocStep} {a : α} : within step r = .ok a ↔ r = .ok a := by
  cases r <;> simp [within, Except.mapError]

theorem within_eq_error_iff {step : LocStep} : within step r = .error es ↔
    ∃ es', r = .error es' ∧ es = es'.map fun e => { e with loc := step :: e.loc } := by
  cases r <;> simp [within, Except.mapError, eq_comm]

theorem both_eq_ok_iff {p : α × β} : both r r' = .ok p ↔ r = .ok p.1 ∧ r' = .ok p.2 := by
  obtain ⟨a, b⟩ := p
  cases r <;> cases r' <;> simp [both]

/-- Two readings fail together if one of them does, and the errors are theirs. -/
theorem both_eq_error (h : both r r' = .error es) :
    es = errors r ++ errors r' ∧ ((∃ es', r = .error es') ∨ ∃ es', r' = .error es') := by
  cases r <;> cases r' <;> simp_all [both, errors, eq_comm]

theorem both_of_error_left (r' : Read β) (h : r = .error es) : ∃ es', both r r' = .error (es ++ es') := by
  cases r' <;> simp [h, both]

theorem both_of_error_right (h : r' = .error es) : ∃ es', both r r' = .error (es' ++ es) := by
  cases r
  · exact ⟨_, by rw [h, both]⟩
  · exact ⟨[], by rw [h, both, List.nil_append]⟩

end Read

/-- How values are read from documents and written to them. -/
structure Codec (N : Type) (α : Type) where
  read : Json N → Read α
  write : α → Json N
  Valid : α → Prop
  read_write : ∀ a, Valid a → read (write a) = .ok a
  valid_of_read : ∀ j a, read j = .ok a → Valid a
  failed : ∀ j es, read j = .error es → es ≠ []

namespace Codec

variable {N : Type} {α β : Type}

/-- A codec whose reader says what a document stands for, or that it stands for nothing. -/
def ofReader (read : Json N → Option α) (type : String) (write : α → Json N) (Valid : α → Prop)
    (hwrite : ∀ a, Valid a → read (write a) = some a) (hread : ∀ j a, read j = some a → Valid a) : Codec N α where
  read j := match read j with
    | some a => .ok a
    | none => .error [⟨[], type, none⟩]
  write := write
  Valid := Valid
  read_write a h := by rw [hwrite a h]
  valid_of_read j a h := by
    cases hj : read j with
    | none =>
      rw [hj] at h
      cases h
    | some b =>
      rw [hj] at h
      exact Except.ok.inj h ▸ hread j b hj
  failed j es h := by
    cases hj : read j with
    | none =>
      rw [hj] at h
      exact Except.error.inj h ▸ List.cons_ne_nil _ _
    | some b =>
      rw [hj] at h
      cases h

/-- A string, and nothing else. -/
def string : Codec N String :=
  ofReader (fun j => match j with | .str s => some s | _ => none) "string_type" .str (fun _ => True)
    (fun _ _ => rfl) fun _ _ _ => trivial

/-- One string, and nothing else. -/
def literal (s : String) : Codec N Unit :=
  ofReader (fun j => match j with | .str s' => if s' = s then some () else none | _ => none) "literal_error"
    (fun _ => .str s) (fun _ => True) (fun _ _ => if_pos rfl) fun _ _ _ => trivial

/-- One of finitely many values, told by their names. -/
def enum (all : List α) (name : α → String) (type : String)
    (h : ∀ a, all.find? (fun b => name b = name a) = some a) : Codec N α :=
  ofReader (fun j => match j with | .str s => all.find? (fun b => name b = s) | _ => none) type
    (fun a => .str (name a)) (fun _ => True) (fun a _ => h a) fun _ _ _ => trivial

/-- The same codec, its valid values told otherwise. -/
def withValid (c : Codec N α) (P : α → Prop) (h : ∀ a, P a ↔ c.Valid a) : Codec N α where
  read := c.read
  write := c.write
  Valid := P
  read_write a ha := c.read_write a ((h a).mp ha)
  valid_of_read j a hread := (h a).mpr (c.valid_of_read j a hread)
  failed := c.failed

/-- A codec whose values a validator lets pass. -/
def validate (c : Codec N α) (fault : α → Option SchemaError) : Codec N α where
  read j := match c.read j with
    | .ok a => match fault a with
      | none => .ok a
      | some e => .error [e]
    | .error es => .error es
  write := c.write
  Valid a := c.Valid a ∧ fault a = none
  read_write a h := by
    rw [c.read_write a h.1]
    simp only [h.2]
  valid_of_read j a h := by
    cases hread : c.read j with
    | error es =>
      rw [hread] at h
      cases h
    | ok b =>
      cases hfault : fault b with
      | none =>
        simp only [hread, hfault] at h
        exact Except.ok.inj h ▸ ⟨c.valid_of_read j b hread, hfault⟩
      | some e => simp [hread, hfault] at h
  failed j es h := by
    cases hread : c.read j with
    | error es' =>
      simp only [hread] at h
      exact Except.error.inj h ▸ c.failed j es' hread
    | ok b =>
      cases hfault : fault b with
      | none => simp [hread, hfault] at h
      | some e =>
        simp only [hread, hfault] at h
        exact Except.error.inj h ▸ List.cons_ne_nil _ _

/-- A codec whose values pass one more check. -/
def check (c : Codec N α) (p : α → Prop) [DecidablePred p] (type : String) : Codec N α :=
  (c.validate fun a => if p a then none else some ⟨[], type, none⟩).withValid (fun a => c.Valid a ∧ p a)
    fun a => by simp [validate]

/-- A codec of another type, of the values that stand for one of its own. -/
def embed (c : Codec N α) (f : α → β) (g : β → α) (hgf : ∀ a, c.Valid a → g (f a) = a) : Codec N β where
  read j := (c.read j).map f
  write b := c.write (g b)
  Valid b := c.Valid (g b) ∧ f (g b) = b
  read_write b h := by
    rw [c.read_write _ h.1]
    exact congrArg Except.ok h.2
  valid_of_read j b h := by
    obtain ⟨a, hread, rfl⟩ := Read.map_eq_ok_iff.mp h
    have hvalid := c.valid_of_read j a hread
    rw [hgf a hvalid]
    exact ⟨hvalid, rfl⟩
  failed j es h := c.failed j es (Read.map_eq_error_iff.mp h)

/-- A codec that never writes null. -/
def Present (c : Codec N α) : Prop := ∀ a, c.write a ≠ .null

/-- A value that may be null; the codec under it never writes null. -/
def option (c : Codec N α) (hnull : c.Present) : Codec N (Option α) where
  read j := match j with
    | .null => .ok none
    | j => (c.read j).map some
  write a := match a with
    | none => .null
    | some a => c.write a
  Valid a := ∀ b ∈ a, c.Valid b
  read_write a h := by
    cases a with
    | none => rfl
    | some b =>
      have hread := c.read_write b (h b rfl)
      cases hwrite : c.write b with
      | null => exact absurd hwrite (hnull b)
      | _ =>
        rw [hwrite] at hread
        simp only [hread, Except.map, hwrite]
  valid_of_read j a h := by
    cases j with
    | null => simp [← Except.ok.inj h]
    | _ =>
      obtain ⟨b, hread, rfl⟩ := Read.map_eq_ok_iff.mp h
      intro b' hb'
      obtain rfl := Option.some_inj.mp hb'
      exact c.valid_of_read _ _ hread
  failed j es h := by
    cases j with
    | null => cases h
    | _ => exact c.failed _ es (Read.map_eq_error_iff.mp h)

section

variable {c : Codec N α}

@[simp] theorem valid_string (s : String) : (string : Codec N String).Valid s := trivial

@[simp] theorem valid_literal (s : String) (u : Unit) : (literal s : Codec N Unit).Valid u := trivial

@[simp] theorem valid_enum {all : List α} {name : α → String} {type : String}
    (h : ∀ a, all.find? (fun b => name b = name a) = some a) (a : α) :
    (enum all name type h : Codec N α).Valid a := trivial

@[simp] theorem present_string : (string : Codec N String).Present := fun _ h => by cases h

@[simp] theorem present_check {p : α → Prop} [DecidablePred p] {type : String} :
    (c.check p type).Present ↔ c.Present := Iff.rfl

@[simp] theorem present_withValid {P : α → Prop} (h : ∀ a, P a ↔ c.Valid a) :
    (c.withValid P h).Present ↔ c.Present := Iff.rfl

@[simp] theorem valid_check {p : α → Prop} [DecidablePred p] {type : String} (a : α) :
    (c.check p type).Valid a ↔ c.Valid a ∧ p a := Iff.rfl

@[simp] theorem valid_option (hnull : c.Present) (a : Option α) :
    (c.option hnull).Valid a ↔ ∀ b ∈ a, c.Valid b := Iff.rfl

@[simp] theorem valid_withValid {P : α → Prop} (h : ∀ a, P a ↔ c.Valid a) (a : α) :
    (c.withValid P h).Valid a ↔ P a := Iff.rfl

end

/-- The items of an array, each under its index. -/
def readItems (c : Codec N α) : ℕ → List (Json N) → Read (List α)
  | _, [] => .ok []
  | i, j :: js => (((c.read j).within (.index i)).both (readItems c (i + 1) js)).map fun p => p.1 :: p.2

theorem readItems_write (c : Codec N α) (i : ℕ) {as : List α} (h : ∀ a ∈ as, c.Valid a) :
    c.readItems i (as.map c.write) = .ok as := by
  induction as generalizing i with
  | nil => rfl
  | cons a as ih =>
    obtain ⟨ha, has⟩ := List.forall_mem_cons.mp h
    rw [List.map_cons, readItems, ih (i + 1) has, c.read_write a ha]
    rfl

theorem valid_of_readItems {c : Codec N α} {i : ℕ} {js : List (Json N)} {as : List α}
    (h : c.readItems i js = .ok as) : ∀ a ∈ as, c.Valid a := by
  induction js generalizing i as with
  | nil => simp [← Except.ok.inj h]
  | cons j js ih =>
    obtain ⟨⟨a, as'⟩, hboth, rfl⟩ := Read.map_eq_ok_iff.mp h
    obtain ⟨hread, hrest⟩ := Read.both_eq_ok_iff.mp hboth
    exact List.forall_mem_cons.mpr ⟨c.valid_of_read j a (Read.within_eq_ok_iff.mp hread), ih hrest⟩

theorem readItems_failed {c : Codec N α} {i : ℕ} {js : List (Json N)} {es : List SchemaError}
    (h : c.readItems i js = .error es) : es ≠ [] := by
  induction js generalizing i es with
  | nil => cases h
  | cons j js ih =>
    obtain ⟨rfl, hfailed⟩ := Read.both_eq_error (Read.map_eq_error_iff.mp h)
    rcases hfailed with ⟨es, hfailed⟩ | ⟨es, hfailed⟩
    · obtain ⟨es', hread, rfl⟩ := Read.within_eq_error_iff.mp hfailed
      simp [hfailed, Read.errors, c.failed j es' hread]
    · simp [hfailed, Read.errors, ih hfailed]

/-- An array, as a tuple of any length. -/
def list (c : Codec N α) : Codec N (List α) where
  read j := match j with
    | .arr items => c.readItems 0 items
    | _ => .error [⟨[], "tuple_type", none⟩]
  write as := .arr (as.map c.write)
  Valid as := ∀ a ∈ as, c.Valid a
  read_write as h := c.readItems_write 0 h
  valid_of_read j as h := by
    cases j with
    | arr items => exact valid_of_readItems h
    | _ => cases h
  failed j es h := by
    cases j with
    | arr items => exact readItems_failed h
    | _ => exact Except.error.inj h ▸ List.cons_ne_nil _ _

@[simp] theorem valid_list {c : Codec N α} (as : List α) : c.list.Valid as ↔ ∀ a ∈ as, c.Valid a := Iff.rfl

end Codec

/-- How the fields of a model are read from an object and written to one. A required field that is missing is
    an error, and a field with a default may be left out for the default. -/
structure Fields (N : Type) (α : Type) where
  names : List String
  required : List String
  defaults : List (String × Json N)
  read : List (String × Json N) → Read α
  write : α → List (String × Json N)
  Valid : α → Prop
  nodup : names.Nodup
  names_write : ∀ a, (write a).map Prod.fst = names
  read_congr : ∀ o o', (∀ name ∈ names, o.lookup name = o'.lookup name) → read o = read o'
  read_write : ∀ a, Valid a → read (write a) = .ok a
  valid_of_read : ∀ o a, read o = .ok a → Valid a
  failed : ∀ o es, read o = .error es → es ≠ []
  located : ∀ o es, read o = .error es → ∀ e ∈ es, ∃ name ∈ names, ∃ rest, e.loc = .field name :: rest
  missing : ∀ o, ∀ name ∈ required, o.lookup name = none →
    ∃ es, read o = .error es ∧ ⟨[.field name], "missing", none⟩ ∈ es
  defaults_names : ∀ d ∈ defaults, d.1 ∈ names
  omitted : ∀ o, ∀ d ∈ defaults, o.lookup d.1 = none → read (d :: o) = read o

namespace Fields

variable {N : Type} {α β : Type}

/-- No fields. -/
def nil : Fields N Unit where
  names := []
  required := []
  defaults := []
  read _ := .ok ()
  write _ := []
  Valid _ := True
  nodup := List.nodup_nil
  names_write _ := rfl
  read_congr _ _ _ := rfl
  read_write _ _ := rfl
  valid_of_read _ _ _ := trivial
  failed _ _ h := by cases h
  located _ _ h := by cases h
  missing _ _ h := by cases h
  defaults_names _ h := by cases h
  omitted _ _ h := by cases h

/-- One field of an object. -/
def readField (name : String) (c : Codec N α) (default : Option α) (o : List (String × Json N)) : Read α :=
  match o.lookup name with
  | some j => (c.read j).within (.field name)
  | none => match default with
    | some a => .ok a
    | none => .error [⟨[.field name], "missing", none⟩]

section

variable {name : String} {c : Codec N α} {default : Option α} {o : List (String × Json N)}

theorem readField_of_lookup {j : Json N} (h : o.lookup name = some j) :
    readField name c default o = (c.read j).within (.field name) := by
  simp only [readField, h]

theorem readField_of_none (h : o.lookup name = none) : readField name c default o =
    match default with
    | some a => .ok a
    | none => .error [⟨[.field name], "missing", none⟩] := by
  simp only [readField, h]

theorem valid_of_readField (hdefault : ∀ a ∈ default, c.Valid a) {a : α}
    (h : readField name c default o = .ok a) : c.Valid a := by
  cases hlookup : o.lookup name with
  | some j =>
    rw [readField_of_lookup hlookup] at h
    exact c.valid_of_read j a (Read.within_eq_ok_iff.mp h)
  | none =>
    rw [readField_of_none hlookup] at h
    cases default with
    | some d => exact Except.ok.inj h ▸ hdefault d rfl
    | none => cases h

/-- A field that cannot be read gives errors, all of them under its name. -/
theorem readField_failed {es : List SchemaError} (h : readField name c default o = .error es) :
    es ≠ [] ∧ ∀ e ∈ es, ∃ rest, e.loc = .field name :: rest := by
  cases hlookup : o.lookup name with
  | some j =>
    rw [readField_of_lookup hlookup] at h
    obtain ⟨es', hread, rfl⟩ := Read.within_eq_error_iff.mp h
    refine ⟨by simpa using c.failed j es' hread, fun e he => ?_⟩
    obtain ⟨e', -, rfl⟩ := List.mem_map.mp he
    exact ⟨e'.loc, rfl⟩
  | none =>
    rw [readField_of_none hlookup] at h
    cases default with
    | some d => cases h
    | none =>
      obtain rfl := Except.error.inj h
      simp

end

/-- One more field, before the others. -/
def cons (name : String) (c : Codec N α) (default : Option α) (hdefault : ∀ a ∈ default, c.Valid a)
    (rest : Fields N β) (hname : name ∉ rest.names) : Fields N (α × β) where
  names := name :: rest.names
  required := if default.isNone then name :: rest.required else rest.required
  defaults := default.toList.map (fun d => (name, c.write d)) ++ rest.defaults
  read o := (readField name c default o).both (rest.read o)
  write p := (name, c.write p.1) :: rest.write p.2
  Valid p := c.Valid p.1 ∧ rest.Valid p.2
  nodup := List.nodup_cons.mpr ⟨hname, rest.nodup⟩
  names_write p := by rw [List.map_cons, rest.names_write]
  read_congr o o' h := by
    obtain ⟨hfirst, hrest⟩ := List.forall_mem_cons.mp h
    simp only [readField, hfirst, rest.read_congr o o' hrest]
  read_write p h := by
    have hlookup : ((name, c.write p.1) :: rest.write p.2).lookup name = some (c.write p.1) := by simp
    have hothers : rest.read ((name, c.write p.1) :: rest.write p.2) = rest.read (rest.write p.2) := by
      refine rest.read_congr _ _ fun other hother => ?_
      have hne : other ≠ name := fun heq => hname (heq ▸ hother)
      simp [List.lookup_cons, beq_false_of_ne hne]
    rw [readField_of_lookup hlookup, c.read_write _ h.1, hothers, rest.read_write _ h.2]
    rfl
  valid_of_read o p h := by
    obtain ⟨hfirst, hrest⟩ := Read.both_eq_ok_iff.mp h
    exact ⟨valid_of_readField hdefault hfirst, rest.valid_of_read o p.2 hrest⟩
  failed o es h := by
    obtain ⟨rfl, hfailed⟩ := Read.both_eq_error h
    rcases hfailed with ⟨es, hfailed⟩ | ⟨es, hfailed⟩
    · simp [hfailed, Read.errors, (readField_failed hfailed).1]
    · simp [hfailed, Read.errors, rest.failed o es hfailed]
  located o es h := by
    obtain ⟨rfl, -⟩ := Read.both_eq_error h
    intro e he
    rcases List.mem_append.mp he with he | he
    · cases hfirst : readField name c default o with
      | ok a => simp [hfirst, Read.errors] at he
      | error es =>
        simp only [hfirst, Read.errors] at he
        obtain ⟨rest, hloc⟩ := (readField_failed hfirst).2 e he
        exact ⟨name, List.mem_cons_self, rest, hloc⟩
    · cases hrest : rest.read o with
      | ok a => simp [hrest, Read.errors] at he
      | error es =>
        simp only [hrest, Read.errors] at he
        obtain ⟨other, hother, loc, hloc⟩ := rest.located o es hrest e he
        exact ⟨other, List.mem_cons_of_mem _ hother, loc, hloc⟩
  missing o other hother hlookup := by
    have hrest : other ∈ rest.required → ∃ es, (readField name c default o).both (rest.read o) = .error es ∧
        ⟨[.field other], "missing", none⟩ ∈ es := by
      intro hmem
      obtain ⟨es, hes, he⟩ := rest.missing o other hmem hlookup
      obtain ⟨es', hboth⟩ := Read.both_of_error_right (r := readField name c default o) hes
      exact ⟨_, hboth, List.mem_append_right _ he⟩
    cases default with
    | some d => exact hrest hother
    | none =>
      rcases List.mem_cons.mp hother with rfl | hmem
      · have hmissing : readField other c none o = .error [⟨[.field other], "missing", none⟩] :=
          readField_of_none hlookup
        obtain ⟨es', hboth⟩ := Read.both_of_error_left (rest.read o) hmissing
        exact ⟨_, hboth, by simp⟩
      · exact hrest hmem
  defaults_names d hd := by
    rcases List.mem_append.mp hd with hd | hd
    · obtain ⟨a, -, rfl⟩ := List.mem_map.mp hd
      exact List.mem_cons_self
    · exact List.mem_cons_of_mem _ (rest.defaults_names d hd)
  omitted o d hd hlookup := by
    rcases List.mem_append.mp hd with hd | hd
    · obtain ⟨a, ha, rfl⟩ := List.mem_map.mp hd
      obtain rfl := Option.mem_toList.mp ha
      have hfirst : ((name, c.write a) :: o).lookup name = some (c.write a) := by simp
      have hothers : rest.read ((name, c.write a) :: o) = rest.read o := by
        refine rest.read_congr _ _ fun other hother => ?_
        have hne : other ≠ name := fun heq => hname (heq ▸ hother)
        simp [List.lookup_cons, beq_false_of_ne hne]
      rw [readField_of_lookup hfirst, readField_of_none hlookup, c.read_write a (hdefault a rfl), hothers]
      rfl
    · have hne : name ≠ d.1 := fun heq => hname (heq ▸ rest.defaults_names d hd)
      have hfirst : (d :: o).lookup name = o.lookup name := by
        obtain ⟨other, j⟩ := d
        simp [List.lookup_cons, beq_false_of_ne hne]
      simp only [readField, hfirst, rest.omitted o d hd hlookup]

/-- One more field that has to be there. -/
def req (name : String) (c : Codec N α) (rest : Fields N β) (hname : name ∉ rest.names := by simp) :
    Fields N (α × β) :=
  cons name c none (by simp) rest hname

/-- One more field that may be left out for its default. -/
def opt (name : String) (c : Codec N α) (default : α) (rest : Fields N β)
    (hdefault : c.Valid default := by simp) (hname : name ∉ rest.names := by simp) : Fields N (α × β) :=
  cons name c (some default) (by simpa using hdefault) rest hname

/-- One more field that may be null, and may be left out for that. -/
def nullable (name : String) (c : Codec N α) (rest : Fields N β) (hnull : c.Present := by simp)
    (hname : name ∉ rest.names := by simp) : Fields N (Option α × β) :=
  opt name (c.option hnull) none rest (fun _ h => nomatch h) hname

section

variable {name : String} {c : Codec N α} {default : α} {rest : Fields N β}

@[simp] theorem names_nil : (nil : Fields N Unit).names = [] := rfl

@[simp] theorem names_req (h : name ∉ rest.names) : (req name c rest h).names = name :: rest.names := rfl

@[simp] theorem names_opt (hd : c.Valid default) (h : name ∉ rest.names) :
    (opt name c default rest hd h).names = name :: rest.names := rfl

@[simp] theorem names_nullable (hnull : c.Present) (h : name ∉ rest.names) :
    (nullable name c rest hnull h).names = name :: rest.names := rfl

@[simp] theorem valid_nullable (hnull : c.Present) (h : name ∉ rest.names) (p : Option α × β) :
    (nullable name c rest hnull h).Valid p ↔ (∀ a ∈ p.1, c.Valid a) ∧ rest.Valid p.2 := Iff.rfl

@[simp] theorem valid_nil (u : Unit) : (nil : Fields N Unit).Valid u := trivial

@[simp] theorem valid_req (h : name ∉ rest.names) (p : α × β) :
    (req name c rest h).Valid p ↔ c.Valid p.1 ∧ rest.Valid p.2 := Iff.rfl

@[simp] theorem valid_opt (hd : c.Valid default) (h : name ∉ rest.names) (p : α × β) :
    (opt name c default rest hd h).Valid p ↔ c.Valid p.1 ∧ rest.Valid p.2 := Iff.rfl

end

/-- The fields of a model, as the components of another type. -/
def via (f : Fields N α) (e : α ≃ β) : Fields N β where
  names := f.names
  required := f.required
  defaults := f.defaults
  read o := (f.read o).map e
  write b := f.write (e.symm b)
  Valid b := f.Valid (e.symm b)
  nodup := f.nodup
  names_write b := f.names_write _
  read_congr o o' h := by rw [f.read_congr o o' h]
  read_write b h := by
    rw [f.read_write _ h]
    exact congrArg Except.ok (e.apply_symm_apply b)
  valid_of_read o b h := by
    obtain ⟨a, hread, rfl⟩ := Read.map_eq_ok_iff.mp h
    rw [e.symm_apply_apply]
    exact f.valid_of_read o a hread
  failed o es h := f.failed o es (Read.map_eq_error_iff.mp h)
  located o es h := f.located o es (Read.map_eq_error_iff.mp h)
  missing o name hname hlookup := by
    obtain ⟨es, hes, he⟩ := f.missing o name hname hlookup
    exact ⟨es, Read.map_eq_error_iff.mpr hes, he⟩
  defaults_names := f.defaults_names
  omitted o d hd hlookup := by rw [f.omitted o d hd hlookup]

@[simp] theorem valid_via (f : Fields N α) (e : α ≃ β) (b : β) : (f.via e).Valid b ↔ f.Valid (e.symm b) :=
  Iff.rfl

end Fields

namespace Codec

variable {N : Type} {α : Type}

/-- The names that are no fields. -/
def extras (f : Fields N α) (o : List (String × Json N)) : List SchemaError :=
  (o.filter fun e => e.1 ∉ f.names).map fun e => ⟨[.field e.1], "extra_forbidden", none⟩

theorem extras_eq_nil_iff {f : Fields N α} {o : List (String × Json N)} :
    extras f o = [] ↔ ∀ e ∈ o, e.1 ∈ f.names := by
  simp [extras, List.filter_eq_nil_iff]

/-- What a model makes of an object: every name is a field, and every field is read. -/
def readObj (f : Fields N α) (o : List (String × Json N)) : Read α :=
  match f.read o, extras f o with
  | .ok a, [] => .ok a
  | r, es => .error (Read.errors r ++ es)

theorem readObj_eq_ok_iff {f : Fields N α} {o : List (String × Json N)} {a : α} :
    readObj f o = .ok a ↔ f.read o = .ok a ∧ ∀ e ∈ o, e.1 ∈ f.names := by
  rw [← extras_eq_nil_iff, readObj]
  cases f.read o <;> cases extras f o <;> simp

theorem readObj_of_not_ok {f : Fields N α} {o : List (String × Json N)} (h : ∀ a, readObj f o ≠ .ok a) :
    readObj f o = .error (Read.errors (f.read o) ++ extras f o) := by
  cases hread : f.read o with
  | error es => simp [readObj, hread]
  | ok a =>
    cases hextras : extras f o with
    | cons e es => simp [readObj, hread, hextras]
    | nil => exact absurd (by simp [readObj, hread, hextras]) (h a)

theorem readObj_eq_error {f : Fields N α} {o : List (String × Json N)} {es : List SchemaError}
    (h : readObj f o = .error es) : es = Read.errors (f.read o) ++ extras f o := by
  refine Except.error.inj (h.symm.trans (readObj_of_not_ok fun a ha => ?_))
  rw [h] at ha
  cases ha

/-- A model whose fields are given, and that forbids any other. -/
def model (f : Fields N α) : Codec N α where
  read j := match j with
    | .obj o => readObj f o
    | _ => .error [⟨[], "model_type", none⟩]
  write a := .obj (f.write a)
  Valid := f.Valid
  read_write a h := by
    refine readObj_eq_ok_iff.mpr ⟨f.read_write a h, fun e he => ?_⟩
    rw [← f.names_write a]
    exact List.mem_map_of_mem he
  valid_of_read j a h := by
    cases j with
    | obj o => exact f.valid_of_read o a (readObj_eq_ok_iff.mp h).1
    | _ => cases h
  failed j es h := by
    cases j with
    | obj o =>
      rintro rfl
      have herrors := readObj_eq_error h
      cases hread : f.read o with
      | error es =>
        rw [hread] at herrors
        exact f.failed o es hread (List.append_eq_nil_iff.mp herrors.symm).1
      | ok a =>
        rw [hread] at herrors
        have hok := readObj_eq_ok_iff.mpr ⟨hread, extras_eq_nil_iff.mp herrors.symm⟩
        have heq := hok.symm.trans h
        cases heq
    | _ => exact Except.error.inj h ▸ List.cons_ne_nil _ _

@[simp] theorem present_model (f : Fields N α) : (model f).Present := fun _ h => by cases h

@[simp] theorem valid_model (f : Fields N α) (a : α) : (model f).Valid a ↔ f.Valid a := Iff.rfl

/-- One of several models, told apart by one of their fields: the error of a model says which it was read as. -/
def tagged {κ : Type} (tag : String) (all : List κ) (name : κ → String) (kind : α → κ) (c : κ → Codec N α)
    (hfind : ∀ k, all.find? (fun k' => name k' = name k) = some k)
    (hwrite : ∀ a, ∃ o, (c (kind a)).write a = .obj o ∧ o.lookup tag = some (.str (name (kind a))))
    (hkind : ∀ k a, (c k).Valid a → kind a = k) : Codec N α where
  read j := match j with
    | .obj o => match o.lookup tag with
      | some (.str s) => match all.find? (fun k => name k = s) with
        | some k => ((c k).read (.obj o)).within (.field s)
        | none => .error [⟨[], "union_tag_invalid", none⟩]
      | some _ => .error [⟨[], "union_tag_invalid", none⟩]
      | none => .error [⟨[], "union_tag_not_found", none⟩]
    | _ => .error [⟨[], "model_attributes_type", none⟩]
  write a := (c (kind a)).write a
  Valid a := (c (kind a)).Valid a
  read_write a h := by
    obtain ⟨o, ho, hlookup⟩ := hwrite a
    have hread := (c (kind a)).read_write a h
    rw [ho] at hread ⊢
    simp only [hlookup, hfind, hread]
    rfl
  valid_of_read j a h := by
    cases j with
    | obj o =>
      simp only at h
      split at h
      · split at h
        · next k _ =>
          have hvalid := (c k).valid_of_read _ a (Read.within_eq_ok_iff.mp h)
          rwa [hkind k a hvalid]
        · cases h
      · cases h
      · cases h
    | _ => cases h
  failed j es h := by
    have hone : ∀ e : SchemaError, (Except.error [e] : Read α) = .error es → es ≠ [] := fun e heq =>
      Except.error.inj heq ▸ List.cons_ne_nil _ _
    cases j with
    | obj o =>
      simp only at h
      split at h
      · split at h
        · next k _ =>
          obtain ⟨es', hread, rfl⟩ := Read.within_eq_error_iff.mp h
          simpa using (c k).failed _ es' hread
        · exact hone _ h
      · exact hone _ h
      · exact hone _ h
    | _ => exact hone _ h

section

variable {f : Fields N α} {o o' : List (String × Json N)} {es : List SchemaError}

/-- A name that is no field is an error, under that name. -/
theorem model_unknown {name : String} (hmem : name ∈ o.map Prod.fst) (hname : name ∉ f.names) :
    ∃ es, (model f).read (.obj o) = .error es ∧ ⟨[.field name], "extra_forbidden", none⟩ ∈ es := by
  obtain ⟨e, he, rfl⟩ := List.mem_map.mp hmem
  refine ⟨_, readObj_of_not_ok fun a ha => hname ((readObj_eq_ok_iff.mp ha).2 e he), ?_⟩
  refine List.mem_append_right _ (List.mem_map.mpr ⟨e, List.mem_filter.mpr ⟨he, ?_⟩, rfl⟩)
  exact decide_eq_true hname

/-- A field without a default that is missing is an error, under its name. -/
theorem model_missing {name : String} (hname : name ∈ f.required) (hlookup : o.lookup name = none) :
    ∃ es, (model f).read (.obj o) = .error es ∧ ⟨[.field name], "missing", none⟩ ∈ es := by
  obtain ⟨es, hread, hmem⟩ := f.missing o name hname hlookup
  refine ⟨_, readObj_of_not_ok fun a ha => ?_, List.mem_append_left _ (by rwa [hread])⟩
  have hok := (readObj_eq_ok_iff.mp ha).1
  rw [hread] at hok
  cases hok

/-- Every error of an object names a field, or a name of the object. -/
theorem model_located (h : (model f).read (.obj o) = .error es) :
    ∀ e ∈ es, ∃ name, (name ∈ f.names ∨ name ∈ o.map Prod.fst) ∧ ∃ rest, e.loc = .field name :: rest := by
  obtain rfl := readObj_eq_error h
  intro e he
  rcases List.mem_append.mp he with he | he
  · cases hread : f.read o with
    | ok a => simp [hread, Read.errors] at he
    | error es =>
      rw [hread] at he
      obtain ⟨name, hname, rest, hloc⟩ := f.located o es hread e he
      exact ⟨name, .inl hname, rest, hloc⟩
  · obtain ⟨entry, hentry, rfl⟩ := List.mem_map.mp he
    exact ⟨entry.1, .inr (List.mem_map_of_mem (List.mem_filter.mp hentry).1), [], rfl⟩

/-- A field with a default may be left out. -/
theorem model_omitted {d : String × Json N} (hd : d ∈ f.defaults) (hlookup : o.lookup d.1 = none) :
    (model f).read (.obj (d :: o)) = (model f).read (.obj o) := by
  have hextras : extras f (d :: o) = extras f o := by
    simp [extras, f.defaults_names d hd]
  change readObj f (d :: o) = readObj f o
  rw [readObj, readObj, f.omitted o d hd hlookup, hextras]

/-- What an object is looked up for, if its names are told apart. -/
theorem lookup_eq_some_iff (hnodup : (o.map Prod.fst).Nodup) {name : String} {j : Json N} :
    o.lookup name = some j ↔ (name, j) ∈ o := by
  induction o with
  | nil => simp
  | cons e o ih =>
    obtain ⟨hfirst, hrest⟩ := List.nodup_cons.mp hnodup
    obtain ⟨other, j'⟩ := e
    rw [List.lookup_cons]
    by_cases heq : name = other
    · subst heq
      have hnot : (name, j) ∉ o := fun hmem => hfirst (List.mem_map.mpr ⟨(name, j), hmem, rfl⟩)
      simp [hnot, eq_comm]
    · simp [beq_false_of_ne heq, heq, ih hrest]

/-- Objects that hold the same entries, their names told apart, are looked up alike. -/
theorem lookup_perm (hperm : o.Perm o') (hnodup : (o.map Prod.fst).Nodup) (name : String) :
    o.lookup name = o'.lookup name := by
  refine Option.ext fun j => ?_
  rw [lookup_eq_some_iff hnodup, lookup_eq_some_iff ((hperm.map Prod.fst).nodup_iff.mp hnodup), hperm.mem_iff]

theorem lookup_eq_none {name : String} (h : name ∉ o.map Prod.fst) : o.lookup name = none := by
  induction o with
  | nil => rfl
  | cons e o ih =>
    obtain ⟨other, j⟩ := e
    simp only [List.map_cons, List.mem_cons, not_or] at h
    rw [List.lookup_cons, beq_false_of_ne h.1]
    exact ih h.2

theorem model_omitted_all {dropped : List (String × Json N)} (hdropped : ∀ d ∈ dropped, d ∈ f.defaults)
    (hnodup : ((dropped ++ o).map Prod.fst).Nodup) :
    (model f).read (.obj (dropped ++ o)) = (model f).read (.obj o) := by
  induction dropped with
  | nil => rfl
  | cons d dropped ih =>
    obtain ⟨hd, hrest⟩ := List.forall_mem_cons.mp hdropped
    rw [List.cons_append] at hnodup ⊢
    obtain ⟨hfresh, hnodup'⟩ := List.nodup_cons.mp hnodup
    rw [model_omitted hd (lookup_eq_none hfresh), ih hrest hnodup']

/-- A valid value is read back if some of the fields that hold their defaults are left out. -/
theorem model_sparse {a : α} (ha : f.Valid a) (keep : String → Bool)
    (h : ∀ e ∈ f.write a, keep e.1 = false → e ∈ f.defaults) :
    (model f).read (.obj ((f.write a).filter fun e => keep e.1)) = .ok a := by
  have hnodup : ((f.write a).map Prod.fst).Nodup := f.names_write a ▸ f.nodup
  have hdropped : ∀ d ∈ (f.write a).filter fun e => !keep e.1, d ∈ f.defaults := by
    intro d hd
    obtain ⟨hmem, hkeep⟩ := List.mem_filter.mp hd
    exact h d hmem (by simpa using hkeep)
  have hperm : ((f.write a).filter (fun e => !keep e.1) ++ (f.write a).filter fun e => keep e.1).Perm
      (f.write a) := List.perm_append_comm.trans (List.filter_append_perm (fun e => keep e.1) (f.write a))
  have hnodup' := (hperm.map Prod.fst).nodup_iff.mpr hnodup
  rw [← model_omitted_all hdropped hnodup']
  refine readObj_eq_ok_iff.mpr ⟨?_, fun e he => ?_⟩
  · rw [f.read_congr _ (f.write a) fun name _ => lookup_perm hperm hnodup' name]
    exact f.read_write a ha
  · rw [← f.names_write a]
    exact List.mem_map_of_mem (hperm.mem_iff.mp he)

/-- A valid value with one entry more is rejected for that entry, and for nothing else. -/
theorem model_added {a : α} (ha : f.Valid a) {name : String} (hname : name ∉ f.names) (j : Json N) :
    (model f).read (.obj ((name, j) :: f.write a)) = .error [⟨[.field name], "extra_forbidden", none⟩] := by
  have hread : f.read ((name, j) :: f.write a) = .ok a := by
    rw [f.read_congr _ (f.write a) fun other hother => ?_, f.read_write a ha]
    have hne : other ≠ name := fun heq => hname (heq ▸ hother)
    rw [List.lookup_cons, beq_false_of_ne hne]
  have hown : extras f (f.write a) = [] :=
    extras_eq_nil_iff.mpr fun e he => f.names_write a ▸ List.mem_map_of_mem he
  have hextras : extras f ((name, j) :: f.write a) = [⟨[.field name], "extra_forbidden", none⟩] := by
    unfold extras at hown ⊢
    rw [List.filter_cons, if_pos (decide_eq_true hname), List.map_cons, hown]
  change readObj f _ = _
  simp only [readObj, hread, hextras, Read.errors, List.nil_append]

end

end Codec

end Airspace
