/-
# Firewall.Api -- setting and clearing filters

The library keeps the filters of a firewall twice: compiled, in the card, and as
strings in files under `/dev/shm/exanic`, for those who ask later.  The functions here
are those of `firewall.c` and `filter/rules.c`.  What they do to the card is a list of
accesses, so that a reader of the card can be asked at every moment; what system calls
give is a parameter.
-/
import ExanicCapture.Firewall.Card
import ExanicCapture.Firewall.Meaning

namespace ExanicCapture.Firewall

set_option autoImplicit false

open Theory Capture ExanicCapture.Filter Save

/-! ## The files -/

inductive StoreCall where
  | mkdir
  | openFile
  | ftruncate
  | write
  | read
  | unlink
  | opendir
  | rmdir
deriving DecidableEq

def StoreCall.word : StoreCall → CStr
  | mkdir => "mkdir".toList
  | openFile => "open".toList
  | ftruncate => "ftruncate".toList
  | write => "write".toList
  | read => "read".toList
  | unlink => "unlink".toList
  | opendir => "opendir".toList
  | rmdir => "rmdir".toList

/-- A system call that failed, and what `strerror` says about it. -/
structure StoreError where
  path : CStr
  call : StoreCall
  reason : CStr
deriving DecidableEq

def StoreError.text (e : StoreError) : CStr :=
  e.path ++ ": ".toList ++ e.call.word ++ " failed: ".toList ++ e.reason

/-- The strings, by slot. -/
abbrev Files := ℕ → Option CStr

def rulesetPath (ruleset : CStr) : CStr := "/dev/shm/exanic/".toList ++ ruleset

def filtersPath (ruleset : CStr) : CStr := rulesetPath ruleset ++ "/filters".toList

def filterPath (ruleset : CStr) (slot : ℕ) : CStr :=
  filtersPath ruleset ++ '/' :: Nat.toDigits 10 slot

/-- What the system calls give while a string is stored; `uninit` is what the path buffer
holds before anything is put there. -/
structure SetCalls where
  uninit : CStr
  mkdirConfig : Option CStr
  mkdirRuleset : Option CStr
  mkdirFilters : Option CStr
  opened : Option CStr
  truncated : Option CStr
  writes : List (Except CStr ℕ)

/-- The loop that writes what is left, `none` while it goes on. -/
def writeLoop : CStr → CStr → List (Except CStr ℕ) → Option (CStr × Option CStr)
  | stored, [], _ => some (stored, none)
  | _, _ :: _, [] => none
  | stored, _ :: _, .error reason :: _ => some (stored, some reason)
  | stored, c :: left, .ok n :: writes =>
      writeLoop (stored ++ (c :: left).take n) ((c :: left).drop n) writes

def exanicSetFilterString (ruleset : CStr) (files : Files) (slot : ℕ) (filter : CStr)
    (sys : SetCalls) : Option (Except StoreError Unit × Files) :=
  match sys.mkdirConfig with
  | some reason => some (.error ⟨sys.uninit, .mkdir, reason⟩, files)
  | none =>
      match sys.mkdirRuleset with
      | some reason => some (.error ⟨fit 256 (rulesetPath ruleset), .mkdir, reason⟩, files)
      | none =>
          match sys.mkdirFilters with
          | some reason => some (.error ⟨fit 256 (filtersPath ruleset), .mkdir, reason⟩, files)
          | none =>
              match sys.opened with
              | some reason =>
                  some (.error ⟨fit 256 (filterPath ruleset slot), .openFile, reason⟩, files)
              | none =>
                  -- `O_CREAT` and `O_TRUNC`
                  match sys.truncated with
                  | some reason =>
                      some (.error ⟨fit 256 (filterPath ruleset slot), .ftruncate, reason⟩,
                        Function.update files slot (some []))
                  | none =>
                      match writeLoop [] filter sys.writes with
                      | none => none
                      | some (stored, some reason) =>
                          some (.error ⟨fit 256 (filterPath ruleset slot), .write, reason⟩,
                            Function.update files slot (some stored))
                      | some (stored, none) =>
                          some (.ok (), Function.update files slot (some stored))

/-- Why a file was not opened. -/
inductive OpenError where
  | enoent
  | other (reason : CStr)
deriving DecidableEq

/-- What opening and reading the file give besides its text. -/
structure GetCalls where
  opened : Option OpenError
  read : Option CStr

/-- `open` does not make up a file, and does not miss one. -/
structure GetCalls.Fits (sys : GetCalls) (file : Option CStr) : Prop where
  absent : file = none → sys.opened ≠ none
  present : file ≠ none → sys.opened ≠ some .enoent

/-- What `read` may store, `filter_len - 1` as a `size_t`: a length that is not positive
is a very large one. -/
def readCount (filterLen : Int32) : ℕ := ((filterLen - 1).toInt % 2 ^ 64).toNat

def exanicGetFilterString (ruleset : CStr) (files : Files) (slot : ℕ) (filterLen : Int32)
    (sys : GetCalls) : Except StoreError CStr :=
  match sys.opened with
  | some .enoent => .ok []
  | some (.other reason) => .error ⟨fit 256 (filterPath ruleset slot), .openFile, reason⟩
  | none =>
      match sys.read with
      | some reason => .error ⟨fit 256 (filterPath ruleset slot), .read, reason⟩
      | none => .ok (((files slot).getD []).take (readCount filterLen))

/-- A buffer of at least one byte gets what fits in front of the terminator. -/
theorem readCount_of_pos {filterLen : Int32} {n : ℕ} (length : filterLen.toInt = n)
    (positive : 0 < n) : readCount filterLen = n - 1 := by
  have one : (1 : Int32).toInt = 1 := rfl
  have small := filterLen.toInt_lt
  have exact : (filterLen - 1).toInt = (n : Int) - 1 := by
    rw [Int32.toInt_sub, length, one]
    exact Int.bmod_eq_of_le_mul_two (by omega) (by omega)
  rw [readCount, exact]
  omega

example : readCount 1 = 0 ∧ readCount 0 = 2 ^ 64 - 1 := by decide

/-- `unlink` fails, or the file is gone. -/
def exanicClearFilterString (ruleset : CStr) (files : Files) (slot : ℕ) (unlink : Option CStr) :
    Except StoreError Unit × Files :=
  match unlink with
  | some reason => (.error ⟨fit 256 (filterPath ruleset slot), .unlink, reason⟩, files)
  | none => (.ok (), Function.update files slot none)

inductive Directory where
  | absent
  | unreadable (reason : CStr)
  | entries (slots : List (ℕ × Option CStr)) (rmdir : Option CStr)

/-- The loop over the directory. -/
def unlinkLoop (ruleset : CStr) : Files → List (ℕ × Option CStr) → Except StoreError Unit × Files
  | files, [] => (.ok (), files)
  | files, (slot, unlink) :: slots =>
      match exanicClearFilterString ruleset files slot unlink with
      | (.error e, files) => (.error { e with path := fit 512 (filterPath ruleset slot) }, files)
      | (.ok (), files) => unlinkLoop ruleset files slots

def exanicClearAllFilterStrings (ruleset : CStr) (files : Files) :
    Directory → Except StoreError Unit × Files
  | .absent => (.ok (), files)
  | .unreadable reason => (.error ⟨fit 512 (filtersPath ruleset), .opendir, reason⟩, files)
  | .entries slots rmdir =>
      match unlinkLoop ruleset files slots with
      | (.error e, files) => (.error e, files)
      | (.ok (), files) =>
          match rmdir with
          | some reason => (.error ⟨fit 512 (filtersPath ruleset), .rmdir, reason⟩, files)
          | none => (.ok (), files)

/-! ## The functions of the library -/

inductive FirewallError where
  | notFirewall
  | invalidSlot (slot : Int32)
  | filter (e : FilterError)
  | store (e : StoreError)
deriving DecidableEq

def FirewallError.text : FirewallError → CStr
  | notFirewall => "not a firewall".toList
  | invalidSlot slot => "invalid filter slot: ".toList ++ decimal slot
  | filter e => e.text
  | store e => e.text

namespace Card

def isFirewall (c : Card) : Bool := c.registers regExanicFunctionId = exanicFunctionFirewall

/-- `exanic_get_num_firewall_filters`. -/
def exanicGetNumFirewallFilters (c : Card) : Int :=
  if c.isFirewall then
    (c.registers (regFirewallIndex regFirewallNumFilters)).toInt32.toInt
  else -1

/-- The card has the slot. -/
def Has (c : Card) (slot : ℕ) : Prop := (slot : ℤ) < c.exanicGetNumFirewallFilters

instance (c : Card) (slot : ℕ) : Decidable (c.Has slot) :=
  inferInstanceAs (Decidable ((slot : ℤ) < c.exanicGetNumFirewallFilters))

/-- `check_firewall` and `check_filter_slot`. -/
def checkFilterSlot (c : Card) (slot : Int32) : Except FirewallError Unit :=
  if c.isFirewall then
    if slot.toInt < 0 ∨ c.exanicGetNumFirewallFilters ≤ slot.toInt then .error (.invalidSlot slot)
    else .ok ()
  else .error .notFirewall

end Card

/-- A card and the files about it. -/
structure Exanic where
  card : Card
  files : Files

/-- What a call returns, and what it does to the card and the files. -/
structure Outcome where
  result : Except FirewallError Unit
  accesses : List Access
  files : Files

namespace Exanic

variable (host : ByteOrder) (shift32 : UInt32) (name : CStr) (fw : Exanic)

/-- A call that changes nothing. -/
def refused (e : FirewallError) : Outcome := ⟨.error e, [], fw.files⟩

def exanicSetFirewallFilter (slot : Int32) (filter : CStr) (sys : SetCalls) : Option Outcome :=
  match fw.card.checkFilterSlot slot with
  | .error e => some (fw.refused e)
  | .ok () =>
      match exanicParseFilterString host shift32 filter with
      | .error e => some (fw.refused (.filter e))
      | .ok (dropRule, rule) =>
          match exanicSetFilterString name fw.files slot.toInt.toNat filter sys with
          | none => none
          | some (.error e, files) => some ⟨.error (.store e), [], files⟩
          | some (.ok (), files) =>
              let ctl := exanicFilterEnable ||| if dropRule then 0 else exanicFilterAllow
              some ⟨.ok (),
                exanicSetFirewallFilterRaw slot.toInt.toNat rule.pattern rule.mask ctl, files⟩

/-- The `size_t` becomes an `int` on its way. -/
def exanicGetFirewallFilter (slot : Int32) (filterLen : UInt64) (sys : GetCalls) :
    Except FirewallError CStr :=
  match fw.card.checkFilterSlot slot with
  | .error e => .error e
  | .ok () =>
      (exanicGetFilterString name fw.files slot.toInt.toNat filterLen.toUInt32.toInt32 sys).mapError
        .store

/-- `exanic_set_firewall_filter_raw` with `zero` twice and no control bits. -/
def clearRaw (slot : ℕ) : List Access :=
  exanicSetFirewallFilterRaw slot (fun _ => 0) (fun _ => 0) 0

def exanicClearFirewallFilter (slot : Int32) (unlink : Option CStr) : Outcome :=
  match fw.card.checkFilterSlot slot with
  | .error e => fw.refused e
  | .ok () =>
      match exanicClearFilterString name fw.files slot.toInt.toNat unlink with
      | (.error e, files) => ⟨.error (.store e), [], files⟩
      | (.ok (), files) => ⟨.ok (), clearRaw slot.toInt.toNat, files⟩

def exanicClearAllFirewallFilters (dir : Directory) : Outcome :=
  if fw.card.isFirewall then
    let (result, files) := exanicClearAllFilterStrings name fw.files dir
    ⟨result.mapError .store,
      (List.range fw.card.exanicGetNumFirewallFilters.toNat).flatMap clearRaw, files⟩
  else fw.refused .notFirewall

def exanicSetFirewallState (state : UInt32) : Outcome :=
  if fw.card.isFirewall then
    ⟨.ok (), [.setRegister (regFirewallIndex regFirewallState) state], fw.files⟩
  else fw.refused .notFirewall

end Exanic

/-! ## Runs -/

/-- The calls that change something, with what the system gives them. -/
inductive Call where
  | set (slot : Int32) (filter : CStr) (sys : SetCalls)
  | clear (slot : Int32) (unlink : Option CStr)
  | clearAll (dir : Directory)
  | setState (state : UInt32)

/-- A directory that is gone has no files, and one that could be removed has none left. -/
def Directory.Fits (files : Files) : Directory → Prop
  | absent => ∀ s, files s = none
  | unreadable _ => True
  | entries slots rmdir => rmdir = none → ∀ s, files s ≠ none → s ∈ slots.map Prod.fst

def Call.Fits (files : Files) : Call → Prop
  | clearAll dir => dir.Fits files
  | _ => True

section Runs

variable (host : ByteOrder) (shift32 : UInt32) (name : CStr)

/-- What a call does; nothing is known of one that still writes its file. -/
def Exanic.call (fw : Exanic) : Call → Option Outcome
  | .set slot filter sys => fw.exanicSetFirewallFilter host shift32 name slot filter sys
  | .clear slot unlink => some (fw.exanicClearFirewallFilter name slot unlink)
  | .clearAll dir => some (fw.exanicClearAllFirewallFilters name dir)
  | .setState state => some (fw.exanicSetFirewallState state)

/-- What was called, and what it returned. -/
abbrev History := List (Call × Except FirewallError Unit)

/-- Calls one after the other. -/
inductive Run (start : Exanic) : History → Exanic → Prop where
  | nil : Run start [] start
  | snoc {history : History} {fw : Exanic} {call : Call} {out : Outcome}
      (before : Run start history fw) (fits : call.Fits fw.files)
      (called : fw.call host shift32 name call = some out) :
      Run start (history ++ [(call, out.result)]) ⟨fw.card.runs out.accesses, out.files⟩

end Runs

end ExanicCapture.Firewall
