import Mathlib.Data.Nat.Digits.Defs
import MemoBoard.Proofs.Glyphs
import MemoBoard.Proofs.Numerals
import MemoBoard.Settings

/-! What the settings are, by what the variables hold. Two variables have to hold texts, and the first of them that
does not decides the fault. Each of the others decides one setting: a number is taken from its variable if that holds
a numeral within the limit, and in every other case the number is the default, as if the variable were not there. -/

namespace MemoBoard

/-- Digits one after another stand for what they stand for by their places. -/
theorem Text.Numeral.ofDigitChars_eq_ofDigits (cs : List Char) :
    Nat.ofDigitChars 10 cs 0 = Nat.ofDigits 10 (cs.reverse.map fun c => c.toNat - '0'.toNat) := by
  rw [Nat.ofDigits_eq_foldr, List.foldr_map, List.foldr_reverse, Nat.ofDigitChars]
  congr 1
  funext n c
  exact Nat.add_comm _ _

namespace Settings

/-- The variable is there, and its bytes are those of the text. -/
def Holds (env : Environment) (name text : String) : Prop := env name = some (Text.bytes text)

/-- Why a variable holds no text: it is not there, or its bytes are those of none. -/
inductive Lacks (env : Environment) (name : String) : Fault → Prop where
  | absent (h : env name = none) : Lacks env name .absent
  | notText (bytes : List UInt8) (h : env name = some bytes) (hbytes : ∀ text, Text.bytes text ≠ bytes) :
      Lacks env name (.notText bytes)

/-- A text is a numeral if it is a plus sign or none, then at least one digit of ASCII, and nothing else. Its number is
what the digits stand for. -/
def Spells (text : String) (n : Nat) : Prop :=
  ∃ digits : List Char, (text.toList = digits ∨ text.toList = '+' :: digits) ∧ digits ≠ [] ∧
    (∀ c ∈ digits, '0' ≤ c ∧ c ≤ '9') ∧ n = Nat.ofDigits 10 (digits.reverse.map fun c => c.toNat - '0'.toNat)

/-- The variable holds a numeral of the number, which is within the limit. -/
def Names (env : Environment) (name : String) (limit n : Nat) : Prop :=
  ∃ text, Holds env name text ∧ Spells text n ∧ n ≤ limit

/-- The number that the variable names, or the default where it names none. -/
def NamesOr (env : Environment) (name : String) (limit default n : Nat) : Prop :=
  Names env name limit n ∨ n = default ∧ ∀ m, ¬ Names env name limit m

/-- The text that the variable holds, or the default where it holds none. -/
def HoldsOr (env : Environment) (name default text : String) : Prop :=
  Holds env name text ∨ text = default ∧ ∀ other, ¬ Holds env name other

section

variable {env : Environment} {name text : String}

theorem text?_eq_some_iff : text? env name = some text ↔ Holds env name text := by
  unfold text? Holds
  rw [Option.bind_eq_some_iff]
  constructor
  · rintro ⟨bytes, hbytes, htext⟩
    rw [hbytes, Text.Utf8.text?_eq_some_iff.mp htext]
  · intro h
    exact ⟨_, h, Text.Utf8.text?_eq_some_iff.mpr rfl⟩

theorem required_eq_ok_iff : required env name = .ok text ↔ Holds env name text := by
  rw [← text?_eq_some_iff, required, text?]
  cases env name with
  | none => exact ⟨nofun, nofun⟩
  | some bytes =>
      dsimp only [Option.bind_some]
      cases Text.Utf8.text? bytes with
      | none => exact ⟨nofun, nofun⟩
      | some s => rw [Except.ok.injEq, Option.some.injEq]

theorem required_eq_error_iff {fault : Fault} : required env name = .error fault ↔ Lacks env name fault := by
  constructor
  · intro h
    unfold required at h
    split at h
    · rename_i hnone
      obtain rfl := Except.error.inj h
      exact .absent hnone
    · rename_i bytes hbytes
      split at h
      · cases h
      · rename_i hnone
        obtain rfl := Except.error.inj h
        refine .notText bytes hbytes fun text htext => ?_
        rw [Text.Utf8.text?_eq_some_iff.mpr htext] at hnone
        cases hnone
  · intro h
    cases h with
    | absent h => rw [required, h]
    | notText bytes h hbytes =>
        have hnone : Text.Utf8.text? bytes = none :=
          Option.eq_none_iff_forall_ne_some.mpr fun text htext => hbytes text (Text.Utf8.text?_eq_some_iff.mp htext)
        rw [required, h]
        dsimp only
        rw [hnone]

theorem spells_iff {n : Nat} : Spells text n ↔ Text.Numeral.natural? text.toList = some n := by
  have hdigit : ∀ c : Char, c.isDigit = true ↔ '0' ≤ c ∧ c ≤ '9' := by
    intro c
    rw [Char.isDigit, Bool.and_eq_true, decide_eq_true_iff, decide_eq_true_iff]
    rfl
  rw [Spells, Text.Numeral.natural?_eq_some_iff]
  refine exists_congr fun digits => and_congr_right' ?_
  rw [Text.Numeral.digits?_eq_some_iff, Text.Numeral.ofDigitChars_eq_ofDigits]
  simp only [hdigit, eq_comm]

theorem names_iff {limit n : Nat} :
    Names env name limit n ↔
      ((text? env name).bind fun s => Text.Numeral.below? (limit + 1) s.toList) = some n := by
  rw [Option.bind_eq_some_iff]
  refine exists_congr fun text => ?_
  rw [text?_eq_some_iff, Text.Numeral.below?_eq_some_iff, ← spells_iff, Nat.lt_succ_iff]

/-- What may be absent is its own value, or the default. -/
theorem getD_eq_iff_or {α : Type} {o : Option α} {P : α → Prop} (h : ∀ a, P a ↔ o = some a) {default a : α} :
    o.getD default = a ↔ P a ∨ a = default ∧ ∀ b, ¬ P b := by
  have hnone : (∀ b, ¬ P b) ↔ o = none :=
    (forall_congr' fun b => not_congr (h b)).trans Option.eq_none_iff_forall_ne_some.symm
  rw [Option.getD_eq_iff, h, hnone, and_comm, eq_comm (a := default)]

theorem number_eq_iff {limit default n : Nat} :
    number env name (limit + 1) default = n ↔ NamesOr env name limit default n :=
  getD_eq_iff_or fun _ => names_iff

theorem host_eq_iff {default : String} : (text? env name).getD default = text ↔ HoldsOr env name default text :=
  getD_eq_iff_or fun _ => text?_eq_some_iff.symm

end

/-! ### The settings -/

/-- The settings, given the two texts that have to be there. -/
def completed (env : Environment) (databaseUrl secret : String) : Settings where
  databaseUrl := databaseUrl
  secret := secret
  host := (text? env "HOST").getD "0.0.0.0"
  port := number env "PORT" UInt16.size 8081
  maxConnections := number env "DB_MAX_CONNECTIONS" UInt32.size 5
  acquireSeconds := number env "DB_ACQUIRE_TIMEOUT_SECS" UInt64.size 10

theorem read_eq (env : Environment) :
    read env = (required env "DATABASE_URL").bind fun databaseUrl =>
      (required env "JWT_SECRET").map (completed env databaseUrl) := by
  unfold read
  cases required env "DATABASE_URL" with
  | error fault => rfl
  | ok databaseUrl => cases required env "JWT_SECRET" <;> rfl

section

variable {env : Environment}

theorem read_eq_error_iff {fault : Fault} :
    read env = .error fault ↔ Lacks env "DATABASE_URL" fault ∨
      (∃ text, Holds env "DATABASE_URL" text) ∧ Lacks env "JWT_SECRET" fault := by
  simp only [read_eq, ← required_eq_error_iff, ← required_eq_ok_iff]
  cases required env "DATABASE_URL" with
  | error other => simp [Except.bind]
  | ok databaseUrl => cases required env "JWT_SECRET" <;> simp [Except.bind, Except.map]

theorem exists_read_eq_error_iff :
    (∃ fault, read env = .error fault) ↔
      (∃ fault, Lacks env "DATABASE_URL" fault) ∨ ∃ fault, Lacks env "JWT_SECRET" fault := by
  simp only [read_eq, ← required_eq_error_iff]
  cases required env "DATABASE_URL" with
  | error other => simp [Except.bind]
  | ok databaseUrl => cases required env "JWT_SECRET" <;> simp [Except.bind, Except.map]

theorem completed_eq_iff {databaseUrl secret : String} {settings : Settings} :
    completed env databaseUrl secret = settings ↔ databaseUrl = settings.databaseUrl ∧ secret = settings.secret ∧
      HoldsOr env "HOST" "0.0.0.0" settings.host ∧ NamesOr env "PORT" 65535 8081 settings.port ∧
      NamesOr env "DB_MAX_CONNECTIONS" 4294967295 5 settings.maxConnections ∧
      NamesOr env "DB_ACQUIRE_TIMEOUT_SECS" 18446744073709551615 10 settings.acquireSeconds := by
  rw [← host_eq_iff, ← number_eq_iff, ← number_eq_iff, ← number_eq_iff]
  cases settings
  rw [completed, Settings.mk.injEq]

theorem read_eq_ok_iff {settings : Settings} :
    read env = .ok settings ↔ Holds env "DATABASE_URL" settings.databaseUrl ∧
      Holds env "JWT_SECRET" settings.secret ∧ HoldsOr env "HOST" "0.0.0.0" settings.host ∧
      NamesOr env "PORT" 65535 8081 settings.port ∧
      NamesOr env "DB_MAX_CONNECTIONS" 4294967295 5 settings.maxConnections ∧
      NamesOr env "DB_ACQUIRE_TIMEOUT_SECS" 18446744073709551615 10 settings.acquireSeconds := by
  rw [read_eq, ← required_eq_ok_iff, ← required_eq_ok_iff]
  cases required env "DATABASE_URL" with
  | error fault => exact ⟨nofun, nofun⟩
  | ok databaseUrl =>
      cases required env "JWT_SECRET" with
      | error fault => exact ⟨nofun, nofun⟩
      | ok secret =>
          rw [Except.ok.injEq, Except.ok.injEq, ← completed_eq_iff]
          exact Iff.of_eq (Except.ok.injEq _ _)

end

section

variable {env : Environment} {name other : String} (value : Option (List UInt8))

theorem required_update (h : name ≠ other) :
    required (Function.update env other value) name = required env name := by
  unfold required
  rw [Function.update_of_ne h]

theorem read_update {change : Settings → Settings} (hurl : "DATABASE_URL" ≠ other) (hsecret : "JWT_SECRET" ≠ other)
    (hchange : ∀ databaseUrl secret, completed (Function.update env other value) databaseUrl secret =
      change (completed env databaseUrl secret)) :
    read (Function.update env other value) = (read env).map change := by
  rw [read_eq, read_eq, required_update value hurl, required_update value hsecret]
  cases required env "DATABASE_URL" with
  | error fault => rfl
  | ok databaseUrl =>
      cases required env "JWT_SECRET" with
      | error fault => rfl
      | ok secret => exact congrArg Except.ok (hchange databaseUrl secret)

/-- A variable that need not be there decides one setting and nothing else, whatever it holds. -/
theorem read_update_optional (env : Environment) :
    (∃ host, read (Function.update env "HOST" value) = (read env).map ({ · with host := host })) ∧
      (∃ port, read (Function.update env "PORT" value) = (read env).map ({ · with port := port })) ∧
      (∃ n, read (Function.update env "DB_MAX_CONNECTIONS" value) = (read env).map ({ · with maxConnections := n })) ∧
      ∃ n, read (Function.update env "DB_ACQUIRE_TIMEOUT_SECS" value) =
        (read env).map ({ · with acquireSeconds := n }) := by
  -- each of the other settings comes from another variable
  refine ⟨⟨_, read_update value ?_ ?_ fun _ _ => rfl⟩, ⟨_, read_update value ?_ ?_ fun _ _ => rfl⟩,
    ⟨_, read_update value ?_ ?_ fun _ _ => rfl⟩, ⟨_, read_update value ?_ ?_ fun _ _ => rfl⟩⟩
  all_goals decide

end

/-- The settings are read exactly as the variables say. Reading fails if one of two variables lacks a text, with the
fault of the first that does; else each number is the one that its variable names within the width of the number, or
the default, and the other variables have no part in it. -/
theorem settings_are_exact (env : Environment) :
    ((∃ fault, read env = .error fault) ↔
      (∃ fault, Lacks env "DATABASE_URL" fault) ∨ ∃ fault, Lacks env "JWT_SECRET" fault) ∧
    (∀ fault, read env = .error fault ↔ Lacks env "DATABASE_URL" fault ∨
      (∃ text, Holds env "DATABASE_URL" text) ∧ Lacks env "JWT_SECRET" fault) ∧
    (∀ settings, read env = .ok settings ↔ Holds env "DATABASE_URL" settings.databaseUrl ∧
      Holds env "JWT_SECRET" settings.secret ∧ HoldsOr env "HOST" "0.0.0.0" settings.host ∧
      NamesOr env "PORT" 65535 8081 settings.port ∧
      NamesOr env "DB_MAX_CONNECTIONS" 4294967295 5 settings.maxConnections ∧
      NamesOr env "DB_ACQUIRE_TIMEOUT_SECS" 18446744073709551615 10 settings.acquireSeconds) ∧
    ∀ value,
      (∃ host, read (Function.update env "HOST" value) = (read env).map ({ · with host := host })) ∧
      (∃ port, read (Function.update env "PORT" value) = (read env).map ({ · with port := port })) ∧
      (∃ n, read (Function.update env "DB_MAX_CONNECTIONS" value) = (read env).map ({ · with maxConnections := n })) ∧
      ∃ n, read (Function.update env "DB_ACQUIRE_TIMEOUT_SECS" value) =
        (read env).map ({ · with acquireSeconds := n }) :=
  ⟨exists_read_eq_error_iff, fun _ => read_eq_error_iff, fun _ => read_eq_ok_iff,
    fun value => read_update_optional value env⟩

example : read (fun
    | "DATABASE_URL" => some (Text.bytes "url")
    | "JWT_SECRET" => some []
    | "PORT" => some (Text.bytes "+0065535")
    | "DB_MAX_CONNECTIONS" => some (Text.bytes "4294967296")
    | "DB_ACQUIRE_TIMEOUT_SECS" => some [0x31, 0xFF]
    | _ => none) = .ok ⟨"url", "", "0.0.0.0", 65535, 5, 10⟩ := by rfl

end Settings
end MemoBoard
