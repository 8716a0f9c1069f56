import Mathlib
import TupleSync.Remote.Connect

/-!
# When permissions are enforced

**Enforcement is off only where the environment does not ask for it, and a program that is to enforce works
on the server's store or on none.** Two places ask whether there is an address to enforce at: the check of
a configuration and the choice of a store. A configuration that was read has passed the first, so the
second has no reason left to choose the permissive store.
-/

set_option autoImplicit false

namespace TupleSync
namespace Config

variable {c : Config} {env : Environment}

theorem validate_eq_ok_iff :
    c.validate = .ok () ↔
      0 < c.pageSize ∧ 0 < c.maxTuplesPerWrite ∧ (c.enabled = true → c.apiUrl ≠ "") := by
  unfold validate
  split
  · next h => simp [h]
  · next hpage =>
    split
    · next h => simp [h]
    · next hchunk =>
      split
      · next h => simp [h]
      · next h =>
        have hurl : c.enabled = true → c.apiUrl ≠ "" := fun he hu => h ⟨he, hu⟩
        simpa using ⟨Nat.pos_of_ne_zero hpage, Nat.pos_of_ne_zero hchunk, hurl⟩

theorem readBool_eq_ok_false_iff {name raw : String} :
    readBool name raw = .ok false ↔
      (Text.trim raw).map Char.toLower ∈ ["0", "false", "no", "off", ""] := by
  rw [readBool]
  split
  · next hyes =>
    have hno : ∀ word : String, word ∈ ["1", "true", "yes", "on"] →
        word ∉ ["0", "false", "no", "off", ""] := by decide
    simpa using hno _ hyes
  · split
    · next h => simpa using h
    · next h => simpa using h

/-- What reading a configuration decides: the first variable whether permissions are enforced, and the
last step that the whole is sound. -/
theorem of_ofEnvironment_eq_ok (h : ofEnvironment env = .ok c) :
    (match env.text? "AUTHZ_ENABLED" with
      | some raw => readBool "AUTHZ_ENABLED" raw
      | none => .ok default.enabled) = .ok c.enabled ∧
    c.validate = .ok () := by
  unfold ofEnvironment at h
  extract_lets rest at h
  -- the other variables and the check do not touch what the first one said
  have hrest : ∀ enabled, rest enabled = .ok c → enabled = c.enabled ∧ c.validate = .ok () := by
    intro enabled h
    simp only [rest, bind, Except.bind] at h
    split at h
    · cases h
    split at h
    · cases h
    split at h
    · cases h
    split at h
    · cases h
    next hvalid =>
      cases h
      exact ⟨rfl, hvalid⟩
  cases htext : env.text? "AUTHZ_ENABLED" with
  | none =>
    rw [htext] at h
    obtain ⟨heq, hvalid⟩ := hrest _ h
    exact ⟨congrArg _ heq, hvalid⟩
  | some raw =>
    simp only [htext] at h
    rcases hread : readBool "AUTHZ_ENABLED" raw with e | enabled
    · rw [hread] at h
      cases h
    · rw [hread] at h
      obtain ⟨rfl, hvalid⟩ := hrest _ h
      exact ⟨hread, hvalid⟩

/-- The environment does not ask for enforcement. -/
inductive AsksForNone (env : Environment) : Prop where
  | absent (h : env.bytes? "AUTHZ_ENABLED" = none)
  | noText (bytes : List UInt8) (h : env.bytes? "AUTHZ_ENABLED" = some bytes)
      (hbytes : String.fromUTF8? ⟨bytes.toArray⟩ = none)
  | saysNo (raw : String) (h : env.text? "AUTHZ_ENABLED" = some raw)
      (hraw : (Text.trim raw).map Char.toLower ∈ ["0", "false", "no", "off", ""])

theorem enabled_eq_false_iff (h : ofEnvironment env = .ok c) :
    c.enabled = false ↔ AsksForNone env := by
  obtain ⟨henabled, -⟩ := of_ofEnvironment_eq_ok h
  cases htext : env.text? "AUTHZ_ENABLED" with
  | none =>
    rw [htext] at henabled
    refine iff_of_true (Except.ok.inj henabled).symm ?_
    cases hbytes : env.bytes? "AUTHZ_ENABLED" with
    | none => exact .absent hbytes
    | some bytes =>
      refine .noText bytes hbytes ?_
      rw [Environment.text?, hbytes] at htext
      exact htext
  | some raw =>
    simp only [htext] at henabled
    constructor
    · intro hfalse
      rw [hfalse, readBool_eq_ok_false_iff] at henabled
      exact .saysNo raw htext henabled
    · intro hnone
      cases hnone with
      | absent h =>
        rw [Environment.text?, h] at htext
        cases htext
      | noText bytes h hbytes =>
        rw [Environment.text?, h] at htext
        exact absurd (hbytes.symm.trans htext) (by simp)
      | saysNo raw' h hraw =>
        obtain rfl : raw = raw' := Option.some.inj (htext.symm.trans h)
        rw [readBool_eq_ok_false_iff.2 hraw] at henabled
        exact (Except.ok.inj henabled).symm

end Config

/-! ## The store -/

/-- Where enforcement is on and there is an address, the store is the server's or there is none. -/
theorem ChosenStore.ofConfig_of_enforced {c : Config} (henabled : c.enabled = true)
    (hurl : c.apiUrl ≠ "") (file : Option (List UInt8)) (wire : Remote.Wire) :
    ChosenStore.ofConfig c file wire =
      ((RemoteStore.connect c file wire).1.map fun () =>
        .remote (RemoteStore.connect c file wire).2, (RemoteStore.connect c file wire).2) :=
  if_pos ⟨henabled, hurl⟩

/-- **Enforcement fails closed.** Of a configuration that was read: where it enforces, connecting to the
server decides alone, and without a connection there is no store. It does not enforce only where the
environment does not ask for it, and its sizes are positive. -/
theorem Config.enforcement_fails_closed {env : Environment} {c : Config}
    (h : Config.ofEnvironment env = .ok c) :
    (c.enabled = true → ∀ file wire,
      (∃ e s, RemoteStore.connect c file wire = (.error e, s) ∧
        ChosenStore.ofConfig c file wire = (.error e, s)) ∨
      (∃ s, RemoteStore.connect c file wire = (.ok (), s) ∧
        ChosenStore.ofConfig c file wire = (.ok (.remote s), s))) ∧
    (c.enabled = false ↔ AsksForNone env) ∧
    c.validate = .ok () ∧ 0 < c.pageSize ∧ 0 < c.maxTuplesPerWrite := by
  obtain ⟨-, hvalid⟩ := of_ofEnvironment_eq_ok h
  obtain ⟨hpage, hchunk, hurl⟩ := validate_eq_ok_iff.1 hvalid
  refine ⟨fun henabled file wire => ?_, enabled_eq_false_iff h, hvalid, hpage, hchunk⟩
  rw [ChosenStore.ofConfig_of_enforced henabled (hurl henabled)]
  rcases RemoteStore.connect c file wire with ⟨e | ⟨⟩, s⟩
  · exact .inl ⟨e, s, rfl, rfl⟩
  · exact .inr ⟨s, rfl, rfl⟩

/-- The environment of a program that is told, with blanks and in capitals, to enforce at an address with
slashes at its end. -/
def Config.enforcingEnvironment : Environment where
  settings :=
    [("AUTHZ_ENABLED", " TRUE ".toUTF8.toList), ("AUTHZ_FGA_API_URL", "http://fga//".toUTF8.toList),
     ("AUTHZ_FGA_STORE_ID", "01".toUTF8.toList), ("AUTHZ_PAGE_SIZE", " 7 ".toUTF8.toList)]

theorem Config.enforcement_fails_closed_at_address :
    let c : Config := { Config.default with
      enabled := true, apiUrl := "http://fga", storeId := some "01", pageSize := 7 }
    Config.ofEnvironment enforcingEnvironment = .ok c ∧
    ChosenStore.ofConfig c none .unreachable =
      (.error .transport, (RemoteStore.connect c none .unreachable).2) := by
  intro c
  have hread : Config.ofEnvironment enforcingEnvironment = .ok c := by cbv
  have hfails : (RemoteStore.connect c none .unreachable).1 = .error .transport := by cbv
  refine ⟨hread, ?_⟩
  obtain ⟨e, s, hconnect, hstore⟩ | ⟨s, hconnect, -⟩ :=
    (Config.enforcement_fails_closed hread).1 rfl none .unreachable
  · rw [hconnect] at hfails ⊢
    cases hfails
    exact hstore
  · rw [hconnect] at hfails
    cases hfails

end TupleSync
