/-
# Capture.DevicePort -- the interface `device:port`

`parse_device_port` copies what stands before the first `:` into an array of 16
bytes, and reads the rest with `strtol`.  It looks at where `strtol` stopped, not at
the value, which is stored in an `int`: a number outside its range is accepted and
becomes another port.

`accepted_iff` says which strings are accepted; `exact_iff` that the parser is exact
on all of them but those whose number is not an `int`.
-/
import ExanicCapture.Capture.Strtol
import ExanicCapture.Theory.Memory

namespace ExanicCapture.Capture

set_option autoImplicit false

open Theory

/-! ## The parser -/

/-- What stands before and after the first `c`, found with `strchr`. -/
def splitFirst (c : Char) : CStr → Option (CStr × CStr)
  | [] => none
  | x :: s =>
      if x = c then some ([], s)
      else (splitFirst c s).map fun parts => (x :: parts.1, parts.2)

/-- The terminator of a C string. -/
def nul : Char := Char.ofNat 0

/-- The result, the memory from `device` on, and `*port_number`. -/
structure DevicePort where
  ret : Int32
  device : ℕ → Char
  portNumber : Int32

/-- `parse_device_port`. -/
def parseDevicePort (str : CStr) (device : ℕ → Char) (portNumber : Int32) : DevicePort :=
  match splitFirst ':' str with
  | none => { ret := -1, device, portNumber }
  | some (name, rest) =>
      if name.length ≥ 16 then { ret := -1, device, portNumber }
      else
        let device := Memory.copy (Memory.copy device 0 name) name.length [nul]
        let (value, q) := strtol rest
        let portNumber := .ofInt value
        -- strtol failed
        if rest = [] ∨ q ≠ [] then { ret := -1, device, portNumber }
        else { ret := 0, device, portNumber }

/-! ## What it should do -/

/-- `s` is a device name that goes into the array, a `:`, and a numeral: by
`strtol_whole` a string that is not empty and that `strtol` reads to its end. -/
structure Names (s d t : CStr) (value : Int) : Prop where
  split : s = d ++ ':' :: t
  first : ':' ∉ d
  short : d.length ≤ 15
  reads : decimalValue t = some value

/-- The array of 16 bytes holds the string and its terminator. -/
structure Holds (device : ℕ → Char) (d : CStr) : Prop where
  room : d.length < 16
  text : Memory.front d.length device = d
  terminated : device d.length = nul

/-- The parser does what it should do on `s`. -/
structure Exact (s : CStr) : Prop where
  accepts : ∀ device port, (parseDevicePort s device port).ret = 0 ↔
    ∃ d t value, Names s d t value ∧ FitsInt value
  stores : ∀ device port d t value, Names s d t value → FitsInt value →
    Holds (parseDevicePort s device port).device d ∧
      (parseDevicePort s device port).portNumber.toInt = value
  inside : ∀ device port i, 16 ≤ i → (parseDevicePort s device port).device i = device i
  roundTrip : ∀ (d : CStr) (p : Int32), s = d ++ ':' :: decimal p → ':' ∉ d → d.length ≤ 15 →
    ∀ device port, (parseDevicePort s device port).ret = 0 ∧
      Holds (parseDevicePort s device port).device d ∧
      (parseDevicePort s device port).portNumber = p

/-! ## The first colon -/

theorem splitFirst_eq_none_iff {c : Char} {s : CStr} : splitFirst c s = none ↔ c ∉ s := by
  induction s with
  | nil => simp [splitFirst]
  | cons x s ih =>
      by_cases here : x = c
      · simp [splitFirst, here]
      · simp [splitFirst, here, Ne.symm here, ih]

theorem splitFirst_append {c : Char} {d : CStr} (absent : c ∉ d) (t : CStr) :
    splitFirst c (d ++ c :: t) = some (d, t) := by
  induction d with
  | nil => simp [splitFirst]
  | cons x d ih =>
      rw [List.mem_cons, not_or] at absent
      obtain ⟨other, later⟩ := absent
      simp [splitFirst, Ne.symm other, ih later]

/-- A string has one first `c`. -/
theorem first_unique {c : Char} {d d' t t' : CStr} (first : c ∉ d) (first' : c ∉ d')
    (same : d ++ c :: t = d' ++ c :: t') : d = d' ∧ t = t' := by
  have found := splitFirst_append first t
  rw [same, splitFirst_append first' t'] at found
  cases found
  exact ⟨rfl, rfl⟩

section

variable {s d t : CStr} {value : Int} (device : ℕ → Char) (port : Int32)

theorem Names.unique {d' t' : CStr} {value' : Int} (names : Names s d t value)
    (names' : Names s d' t' value') : d = d' ∧ t = t' ∧ value = value' := by
  obtain ⟨rfl, rfl⟩ := first_unique names.first names'.first (names.split.symm.trans names'.split)
  exact ⟨rfl, rfl, Option.some.inj (names.reads.symm.trans names'.reads)⟩

/-! ## What the parser does -/

/-- A device name and its number are stored, the number as far as it goes into an `int`. -/
theorem parseDevicePort_names (names : Names s d t value) :
    parseDevicePort s device port =
      { ret := 0, device := Memory.copy (Memory.copy device 0 d) d.length [nul]
        portNumber := .ofInt (cutToLong value) } := by
  have notLong : ¬ d.length ≥ 16 := by
    have := names.short
    omega
  have nonempty : t ≠ [] := by
    rintro rfl
    have reads := names.reads
    have empty : decimalValue [] = none := by decide
    rw [empty] at reads
    cases reads
  unfold parseDevicePort
  rw [names.split, splitFirst_append names.first]
  simp only [notLong, if_false, strtol_of_value names.reads, nonempty, ne_eq, not_true_eq_false,
    or_self]

variable {device port} in
theorem names_of_accepted (accepted : (parseDevicePort s device port).ret = 0) :
    ∃ d t value, Names s d t value := by
  have failed : (-1 : Int32) ≠ 0 := by decide
  by_cases colon : ':' ∈ s
  · obtain ⟨d, t, rfl, first⟩ := List.eq_append_cons_of_mem colon
    unfold parseDevicePort at accepted
    rw [splitFirst_append first] at accepted
    dsimp only at accepted
    split at accepted
    · exact absurd accepted failed
    · rename_i notLong
      split at accepted
      · exact absurd accepted failed
      · rename_i read
        rw [not_or, not_not] at read
        obtain ⟨nonempty, whole⟩ := read
        have numeral := (strtol_whole.1 whole).resolve_left nonempty
        obtain ⟨value, reads⟩ := Option.isSome_iff_exists.1 numeral
        exact ⟨d, t, value, rfl, first, by omega, reads⟩
  · unfold parseDevicePort at accepted
    rw [splitFirst_eq_none_iff.2 colon] at accepted
    exact absurd accepted failed

/-- The strings that are accepted. -/
theorem accepted_iff :
    (parseDevicePort s device port).ret = 0 ↔ ∃ d t value, Names s d t value := by
  constructor
  · exact names_of_accepted
  · rintro ⟨d, t, value, names⟩
    rw [parseDevicePort_names device port names]

theorem holds_copy (room : d.length < 16) :
    Holds (Memory.copy (Memory.copy device 0 d) d.length [nul]) d := by
  refine ⟨room, ?_, ?_⟩
  · have text : Memory.front (0 + d.length) (Memory.copy device 0 d) =
        Memory.front 0 device ++ d := Memory.front_copy 0 device rfl
    have kept : Memory.front d.length (Memory.copy (Memory.copy device 0 d) d.length [nul]) =
        Memory.front d.length (Memory.copy device 0 d) :=
      List.map_congr_left fun i member => Memory.copy_of_lt _ _ (List.mem_range.1 member)
    rw [Nat.zero_add, Memory.front_zero, List.nil_append] at text
    rw [kept, text]
  · exact Memory.copy_at _ _ [nul] (j := 0) (by decide)

/-- Nothing behind the array is written. -/
theorem parseDevicePort_inside (i : ℕ) (behind : 16 ≤ i) :
    (parseDevicePort s device port).device i = device i := by
  unfold parseDevicePort
  split
  · rfl
  · dsimp only
    split
    · rfl
    · rename_i name _ _ notLong
      have kept : Memory.copy (Memory.copy device 0 name) name.length [nul] i = device i := by
        rw [Memory.copy_of_ge _ (by simp; omega), Memory.copy_of_ge _ (by omega)]
      split <;> exact kept

/-- What is stored for a number that is an `int`. -/
theorem parseDevicePort_stores (names : Names s d t value) (fits : FitsInt value) :
    Holds (parseDevicePort s device port).device d ∧
      (parseDevicePort s device port).portNumber.toInt = value := by
  have room : d.length < 16 := Nat.lt_succ_of_le names.short
  rw [parseDevicePort_names device port names]
  exact ⟨holds_copy device room, (ofInt_cutToLong_iff value).2 fits⟩

theorem fitsInt_toInt (p : Int32) : FitsInt p.toInt :=
  ⟨p.le_toInt, Int.le_of_lt_add_one p.toInt_lt⟩

/-- A device name and a printed `int` come back. -/
theorem parseDevicePort_decimal {p : Int32} (first : ':' ∉ d) (short : d.length ≤ 15) :
    (parseDevicePort (d ++ ':' :: decimal p) device port).ret = 0 ∧
      Holds (parseDevicePort (d ++ ':' :: decimal p) device port).device d ∧
      (parseDevicePort (d ++ ':' :: decimal p) device port).portNumber = p := by
  have names : Names (d ++ ':' :: decimal p) d (decimal p) p.toInt :=
    ⟨rfl, first, short, decimalValue_decimal p⟩
  obtain ⟨holds, number⟩ := parseDevicePort_stores device port names (fitsInt_toInt p)
  exact ⟨(accepted_iff device port).2 ⟨d, decimal p, p.toInt, names⟩, holds, Int32.toInt_inj.1 number⟩

/-- Where the parser is exact, numerals that select one port denote one number. -/
theorem Exact.separates {s' d' t' : CStr} {value' : Int} (exact : Exact s) (exact' : Exact s')
    (names : Names s d t value) (names' : Names s' d' t' value')
    (same : (parseDevicePort s device port).portNumber =
      (parseDevicePort s' device port).portNumber) : value = value' := by
  have number : ∀ {s d t value}, Exact s → Names s d t value →
      (parseDevicePort s device port).portNumber.toInt = value := by
    intro s d t value exact names
    have accepted := (accepted_iff device port).2 ⟨d, t, value, names⟩
    obtain ⟨_, _, _, found, fits⟩ := (exact.accepts device port).1 accepted
    obtain ⟨-, -, rfl⟩ := names.unique found
    exact (exact.stores device port d t value names fits).2
  rw [← number exact names, ← number exact' names', same]

/-- **The parser is exact but for numbers that are no `int`.** -/
theorem exact_iff (s : CStr) :
    Exact s ↔ ∀ d t value, Names s d t value → FitsInt value := by
  constructor
  · intro exact d t value names
    have accepted := (accepted_iff (fun _ => nul) 0).2 ⟨d, t, value, names⟩
    obtain ⟨d', t', value', names', fits⟩ := (exact.accepts _ _).1 accepted
    obtain ⟨-, -, rfl⟩ := names.unique names'
    exact fits
  · intro fits
    refine ⟨?_, ?_, ?_, ?_⟩
    · intro device port
      rw [accepted_iff]
      constructor
      · rintro ⟨d, t, value, names⟩
        exact ⟨d, t, value, names, fits d t value names⟩
      · rintro ⟨d, t, value, names, -⟩
        exact ⟨d, t, value, names⟩
    · intro device port d t value names inside
      exact parseDevicePort_stores device port names inside
    · intro device port i behind
      exact parseDevicePort_inside device port i behind
    · rintro d p rfl first short device port
      exact parseDevicePort_decimal device port first short

end

/-! ## Poles: port 4294967297 -/

namespace Poles

/-- It is taken for port 1. -/
theorem wrapped_port_accepted :
    ((parseDevicePort ['e', ':', '4', '2', '9', '4', '9', '6', '7', '2', '9', '7']
          (fun _ => nul) 0).ret = 0 ∧
        (parseDevicePort ['e', ':', '4', '2', '9', '4', '9', '6', '7', '2', '9', '7']
          (fun _ => nul) 0).portNumber = 1) ∧
      ¬ ∀ s, Exact s := by
  have names : Names ['e', ':', '4', '2', '9', '4', '9', '6', '7', '2', '9', '7'] ['e']
      ['4', '2', '9', '4', '9', '6', '7', '2', '9', '7'] 4294967297 :=
    ⟨rfl, by decide, by decide, by decide⟩
  have accepted : (parseDevicePort ['e', ':', '4', '2', '9', '4', '9', '6', '7', '2', '9', '7']
      (fun _ => nul) 0).ret = 0 := by
    decide
  refine ⟨⟨accepted, by decide⟩, ?_⟩
  intro always
  obtain ⟨d, t, value, names', fits⟩ := ((always _).accepts _ _).1 accepted
  obtain ⟨-, -, rfl⟩ := names.unique names'
  exact absurd fits.2 (by decide)

end Poles

end ExanicCapture.Capture
