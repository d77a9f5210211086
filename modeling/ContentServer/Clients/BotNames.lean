import ContentServer.Clients.BotSpeech
import ContentServer.Foundation.Numerals

/-!
# The names of the bots

The load test numbers its bots, and checks only the name with the last number
against the limits of the server.  The names are all different; they are all
accepted if the first one is, too.
-/

namespace ContentServer
namespace Clients

open Consumers Foundation Protocol

/-- The fields of `config` that `validate` checks. -/
structure Config (double : Type) where
  count : Int64
  start : Int64
  /-- The flag `prefix`. -/
  lead : List UInt8
  chatRate : double

/-- The errors of `validate`. -/
inductive ConfigError where
  | count
  | chatRate
  | length (last : List UInt8)
deriving DecidableEq

namespace Config

variable {double : Type}

/-- `fmt.Sprintf("%s%03d", cfg.prefix, k)` -/
def name (cfg : Config double) (k : Int64) : List UInt8 :=
  cfg.lead ++ padded 3 k.toInt

/-- The names that `main` makes up. -/
def names (cfg : Config double) : List (List UInt8) :=
  (List.range cfg.count.toInt.toNat).map fun i => cfg.name (cfg.start + Int64.ofNat i)

def validate [Zero double] [One double] [LT double] [DecidableLT double]
    (cfg : Config double) : Except ConfigError Unit :=
  if cfg.count ≤ 0 then .error .count
  else if cfg.chatRate < 0 ∨ 1 < cfg.chatRate then .error .chatRate
  else
    let last := cfg.name (cfg.start + cfg.count - 1)
    if last.length < 3 ∨ 10 ≤ last.length then .error (.length last)
    else .ok ()

/-!
# All names
-/

variable {cfg : Config double}

/-- No two bots have the same name, even if the numbers wrap around. -/
theorem nodup_names (cfg : Config double) : cfg.names.Nodup := by
  refine List.Nodup.map_on ?_ List.nodup_range
  intro i hi j hj hsame
  have hcount := cfg.count.toInt_lt
  rw [List.mem_range] at hi hj
  have hnumber := Int64.toInt.inj (padded_injective 3 (List.append_cancel_left hsame))
  have hindex := congrArg Int64.toInt ((Int64.add_right_inj cfg.start).mp hnumber)
  rw [Int64.toInt_ofNat_of_lt (by omega), Int64.toInt_ofNat_of_lt (by omega)] at hindex
  omega

theorem first_mem_names (h : 0 < cfg.count.toInt) : cfg.name cfg.start ∈ cfg.names := by
  refine List.mem_map.mpr ⟨0, List.mem_range.mpr (by omega), ?_⟩
  exact congrArg cfg.name (Int64.add_zero cfg.start)

/-- The sum of two integers, up to the wrapping around. -/
theorem toInt_add_wrap (a b : Int64) :
    exists k : Int, (a + b).toInt = a.toInt + b.toInt + 2 ^ 64 * k := by
  have hwrap := Int.bmod_add_bdiv (a.toInt + b.toInt) (2 ^ 64)
  rw [Int64.toInt_add]
  exact ⟨-(a.toInt + b.toInt).bdiv (2 ^ 64), by omega⟩

theorem toInt_sub_one_wrap (a : Int64) :
    exists k : Int, (a - 1).toInt = a.toInt - 1 + 2 ^ 64 * k := by
  have hwrap := Int.bmod_add_bdiv (a.toInt - 1) (2 ^ 64)
  have hone : (1 : Int64).toInt = 1 := rfl
  rw [Int64.toInt_sub, hone]
  exact ⟨-(a.toInt - 1).bdiv (2 ^ 64), by omega⟩

/-- The numbers do not wrap around if the first and the last are far from the
ends of the range. -/
theorem number_between (hcount : 0 < cfg.count.toInt)
    (hfirst : cfg.start.toInt.natAbs < 10 ^ 9)
    (hlast : (cfg.start + cfg.count - 1).toInt.natAbs < 10 ^ 9) {i : Nat}
    (hi : i < cfg.count.toInt.toNat) :
    cfg.start.toInt ≤ (cfg.start + Int64.ofNat i).toInt ∧
      (cfg.start + Int64.ofNat i).toInt ≤ (cfg.start + cfg.count - 1).toInt := by
  have hrange := cfg.count.toInt_lt
  have hlow := (cfg.start + Int64.ofNat i).le_toInt
  have hhigh := (cfg.start + Int64.ofNat i).toInt_lt
  rcases toInt_sub_one_wrap (cfg.start + cfg.count) with ⟨k, hk⟩
  rcases toInt_add_wrap cfg.start cfg.count with ⟨l, hl⟩
  rcases toInt_add_wrap cfg.start (Int64.ofNat i) with ⟨m, hm⟩
  rw [Int64.toInt_ofNat_of_lt (by omega)] at hm
  omega

/-- If the first and the last name are short, so are all between them. -/
theorem short_names (hcount : 0 < cfg.count.toInt)
    (hfirst : (cfg.name cfg.start).length < 10)
    (hlast : (cfg.name (cfg.start + cfg.count - 1)).length < 10) {name : List UInt8}
    (hname : name ∈ cfg.names) : name.length < 10 := by
  rcases List.mem_map.mp hname with ⟨i, hi, rfl⟩
  unfold Config.name at hfirst hlast ⊢
  rw [List.length_append] at hfirst hlast ⊢
  have hbetween := number_between hcount
    (natAbs_lt_of_length_padded 3 (by omega))
    (natAbs_lt_of_length_padded 3 (by omega)) (List.mem_range.mp hi)
  have hlength := length_padded_le 3 hbetween.left hbetween.right
  omega

theorem three_le_length (cfg : Config double) (k : Int64) : 3 ≤ (cfg.name k).length := by
  have hnumber := le_length_padded 3 k.toInt
  unfold Config.name
  rw [List.length_append]
  omega

end Config

/-!
# What the server accepts
-/

/-- The server reads the name as it is, and it is of the right length. -/
def Accepted (name : List UInt8) : Prop :=
  (readWord name).1 = name ∧ 3 ≤ name.length ∧ name.length < 10

instance (name : List UInt8) : Decidable (Accepted name) :=
  inferInstanceAs (Decidable (_ ∧ _))

/-- A name of the right length is accepted if it has no spaces. -/
theorem accepted_iff {name : List UInt8} (h : 3 ≤ name.length) :
    Accepted name <-> (forall c, c ∈ name -> isSpace c = false) ∧ name.length < 10 := by
  constructor
  · intro haccepted
    refine ⟨fun c hc => ?_, haccepted.right.right⟩
    rw [← haccepted.left] at hc
    exact blankless_readWord name c hc
  · intro hname
    exact ⟨readWord_blankless hname.left, h, hname.right⟩

section Logins

variable {double : Type}

theorem not_calls_sendError (name : List UInt8) (sessionId : Nat) (t : List UInt8) :
    ¬ (sendError sessionId t : Handler double Unit).Calls (.loginOrRegister name) := by
  intro hcalls
  rcases hcalls with hsend | ⟨_, hdone⟩
  · cases hsend
  · cases hdone

/-- `HandleNick` asks the database for exactly the names that it accepts. -/
theorem calls_handleNick {sessionId : Nat} {name : List UInt8} :
    (handleNick sessionId name : Handler double Unit).Calls (.loginOrRegister name) <->
      Accepted name := by
  unfold handleNick Accepted
  by_cases hlength : (readWord name).1.length < 3 ∨ (readWord name).1.length ≥ 10
  · simp only [hlength, Bool.or_eq_true, decide_eq_true_eq, if_true]
    constructor
    · exact fun hcalls => absurd hcalls (not_calls_sendError name _ _)
    · intro haccepted
      rw [haccepted.left] at hlength
      omega
  · simp only [hlength, Bool.or_eq_true, decide_eq_true_eq, if_false]
    constructor
    · intro hcalls
      rcases hcalls with hnamed | ⟨answer, hcalls⟩
      · cases hnamed
      · cases answer with
        | true => exact absurd hcalls (not_calls_sendError name _ _)
        | false =>
            rcases hcalls with hlogin | ⟨user, hcalls⟩
            · injection hlogin with hname
              rw [hname] at hlength
              exact ⟨hname, by omega, by omega⟩
            · -- no call after the login is another one
              cases user with
              | none => exact absurd hcalls (not_calls_sendError name _ _)
              | some userId =>
                  rcases hcalls with hset | ⟨done, hcalls⟩
                  · cases hset
                  cases done with
                  | false => exact absurd hcalls (not_calls_sendError name _ _)
                  | true =>
                      rcases hcalls with hbound | ⟨_, hranked | ⟨_, hread | ⟨friends, hcalls⟩⟩⟩
                      · cases hbound
                      · cases hranked
                      · cases hread
                      cases friends with
                      | none => cases hcalls
                      | some friendIds =>
                          rcases hcalls with hload | ⟨_, hroster | ⟨_, hsend | ⟨_, hdone⟩⟩⟩
                          · cases hload
                          · cases hroster
                          · cases hsend
                          · cases hdone
    · intro haccepted
      refine Or.inr ⟨false, Or.inl ?_⟩
      rw [haccepted.left]

end Logins

section Fleets

variable {double : Type} [Zero double] [One double] [LT double] [DecidableLT double]
  {cfg : Config double}

theorem validate_ok (h : cfg.validate = .ok ()) :
    0 < cfg.count.toInt ∧ (cfg.name (cfg.start + cfg.count - 1)).length < 10 := by
  unfold Config.validate at h
  split at h
  · cases h
  · rename_i hcount
    split at h
    · cases h
    · simp only at h
      split at h
      · cases h
      · rename_i hlength
        rw [Int64.not_le, Int64.lt_iff_toInt_lt] at hcount
        exact ⟨hcount, by omega⟩

theorem isSpace_number {width : Nat} {z : Int} {c : UInt8} (h : c ∈ padded width z) :
    isSpace c = false := by
  rcases mem_padded h with rfl | hdigit
  · rfl
  · unfold isDigit at hdigit
    simp only [Bool.and_eq_true, decide_eq_true_eq] at hdigit
    exact isSpace_of_lt (by omega)

/--
What the check of the load test is worth.  In a configuration that passes it all
names are different, and the server tries to log in every bot under its name if
and only if there are no spaces in the names and the first name is short, too.
-/
theorem fleet_logs_in_iff (hvalid : cfg.validate = .ok ()) :
    cfg.names.Nodup ∧
      ((forall name, name ∈ cfg.names -> forall sessionId,
        (handleNick sessionId name : Handler double Unit).Calls (.loginOrRegister name)) <->
          (forall c, c ∈ cfg.lead -> isSpace c = false) ∧
            (cfg.name cfg.start).length < 10) := by
  rcases validate_ok hvalid with ⟨hcount, hlast⟩
  refine ⟨cfg.nodup_names, ?_⟩
  constructor
  · intro hlogin
    have hfirst := calls_handleNick.mp (hlogin _ (Config.first_mem_names hcount) 0)
    rcases (accepted_iff (cfg.three_le_length cfg.start)).mp hfirst with ⟨hspace, hshort⟩
    exact ⟨fun c hc => hspace c (List.mem_append_left _ hc), hshort⟩
  · intro hgood name hname sessionId
    have hshort := Config.short_names hcount hgood.right hlast hname
    rcases List.mem_map.mp hname with ⟨i, hi, rfl⟩
    refine calls_handleNick.mpr ((accepted_iff (cfg.three_le_length _)).mpr ⟨?_, hshort⟩)
    intro c hc
    rcases List.mem_append.mp hc with hlead | hnumber
    · exact hgood.left c hlead
    · exact isSpace_number hnumber

/-- The check passes, but the first of the two names is too long. -/
theorem fleet_logs_in_iff_negative :
    exists cfg : Config Int, cfg.validate = .ok () ∧ cfg.names.Nodup ∧
      ¬ (forall name, name ∈ cfg.names -> forall sessionId,
        (handleNick sessionId name : Handler Int Unit).Calls (.loginOrRegister name)) := by
  have hvalid : (⟨2, -1000, text "users", 1⟩ : Config Int).validate = .ok () := by
    decide +kernel
  have hfleet := fleet_logs_in_iff hvalid
  refine ⟨_, hvalid, hfleet.left, fun hlogin => ?_⟩
  have hshort := (hfleet.right.mp hlogin).right
  exact absurd hshort (by decide +kernel)

end Fleets
end Clients
end ContentServer
