import Mathlib.Algebra.BigOperators.Fin
import Mathlib.Data.ZMod.Units
import Mathlib.Tactic.Module
import Oclob.Edge.Sharing
import Oclob.Lib.Sharing

/-!
# Reconstruction of the capability key

Model of `reconstruct_settlement_capability_key` and of the Feldman equation that
`CapabilityKeyShare::verify` checks, in `oclob-edge/src/lib.rs`. The group and its encoding are an
`EdgeSuite`.

`reconstruct_key`: when the manifest commits to the coefficients of a key, every list of three or
more verified shares of different parties, in any order, gives that key; a list that is shorter,
repeats a party or holds a share of another order gives none. The equation forces an accepted
share onto the committed polynomial, and the weights of the loop are the Lagrange weights at zero.
The order of the scalar field need not be known to be prime: what is inverted are products of
differences of party numbers.
-/

namespace Oclob.Edge

open Oclob.Core Oclob.Lib Polynomial CapabilityKeyShare

/-- `SETTLEMENT_KEY_THRESHOLD`. -/
def settlementKeyThreshold : Nat := 3

/-- `Scalar::from(u64::from(party) + 1)`. -/
def CapabilityKeyShare.node (share : CapabilityKeyShare) : Scalar := (share.party + 1 : Nat)

/-- The factors of one share: the node of every other share, and its distance. -/
def numerator (shares : List CapabilityKeyShare) (share : CapabilityKeyShare) : Scalar :=
  (shares.map fun other => if other.party = share.party then 1 else -other.node).prod

def denominator (shares : List CapabilityKeyShare) (share : CapabilityKeyShare) : Scalar :=
  (shares.map fun other =>
    if other.party = share.party then 1 else share.node - other.node).prod

/-- What one share adds to the secret. -/
def lagrangeTerm (shares : List CapabilityKeyShare) (share : CapabilityKeyShare) :
    Except EdgeError Scalar := do
  let evaluation ← (canonicalScalar share.value).mapError fun _ => .capabilityKeyShare
  return evaluation * numerator shares share * (denominator shares share)⁻¹

namespace EdgeSuite

variable {G : Type} [AddCommGroup G] [Module Scalar G] [DecidableEq G]

/-- The equation of `CapabilityKeyShare::verify`. -/
def checkFeldman (suite : EdgeSuite G) (manifest : EdgeOrderManifest)
    (share : CapabilityKeyShare) : Except EdgeError Unit := do
  let scalar ← (canonicalScalar share.value).mapError fun _ => .capabilityKeyShare
  let expected ← (suite.combine share.node manifest.settlementKeyCommitments 1 0).mapError
    fun _ => .capabilityKeyShare
  require (scalar • suite.basepoint = expected) .capabilityKeyShare

/-- `settlement_key_commitments` for the coefficients of a key. -/
def keyCommitments (suite : EdgeSuite G) (key : Coefficients) : List Digest32 :=
  [suite.compress (key.constant • suite.basepoint), suite.compress (key.linear • suite.basepoint),
    suite.compress (key.quadratic • suite.basepoint)]

end EdgeSuite

section Reconstruct

variable [NodeCrypto]

/-- The loop over the shares: each of a new party, and valid. -/
def checkShares (manifest : EdgeOrderManifest) (now : Nat) :
    Finset Nat → List CapabilityKeyShare → Except EdgeError Unit
  | _, [] => .ok ()
  | parties, share :: rest => do
    require (share.party ∉ parties) .capabilityKeyThreshold
    share.verify manifest share.party now
    checkShares manifest now (insert share.party parties) rest

variable {G : Type} [AddCommGroup G] [Module Scalar G] [DecidableEq G]

/-- `reconstruct_settlement_capability_key`. -/
def reconstructSettlementCapabilityKey (suite : EdgeSuite G) (manifest : EdgeOrderManifest)
    (shares : List CapabilityKeyShare) (now : Nat) : Except EdgeError Digest32 := do
  manifest.verify now
  require (settlementKeyThreshold ≤ shares.length ∧ shares.length ≤ mpcParties)
    .capabilityKeyThreshold
  checkShares manifest now ∅ shares
  let terms ← shares.mapM (lagrangeTerm shares)
  let secret := terms.sum
  require (secret ≠ 0 ∧ suite.compress (secret • suite.basepoint) =
    manifest.settlementKeyCommitments.getD 0 0) .capabilityKeyThreshold
  return scalarBytes secret

end Reconstruct

/-! ## The nodes -/

theorem mapM_eq_ok_map {ε α β : Type} {f : α → Except ε β} {g : α → β} {l : List α}
    (h : ∀ a ∈ l, f a = .ok (g a)) : l.mapM f = .ok (l.map g) := by
  induction l with
  | nil => rfl
  | cons a l ih =>
    obtain ⟨ha, hl⟩ := List.forall_mem_cons.mp h
    rw [List.mapM_cons, ha, ih hl]
    rfl

/-- Different party numbers differ by a unit. -/
theorem isUnit_sub_node {p q : Nat} (hp : p < mpcParties) (hq : q < mpcParties) (hne : p ≠ q) :
    IsUnit (((p + 1 : Nat) : Scalar) - (q + 1 : Nat)) := by
  have hcoprime : ∀ d < 7, d ≠ 0 → Nat.Coprime d scalarOrder := by decide
  have hunit : ∀ {a b : Nat}, a < b → b < 7 →
      IsUnit (((b + 1 : Nat) : Scalar) - (a + 1 : Nat)) := by
    intro a b hlt hb
    rw [← Nat.cast_sub (by omega), ZMod.isUnit_iff_coprime]
    exact hcoprime _ (by omega) (by omega)
  rcases lt_or_gt_of_ne hne with hlt | hlt
  · rw [← neg_sub]
    exact (hunit hlt hq).neg
  · exact hunit hlt hp

variable {shares : List CapabilityKeyShare}

/-- The node of the share at a position. -/
def nodeAt (shares : List CapabilityKeyShare) (i : Fin shares.length) : Scalar :=
  (shares.get i).node

section Distinct

variable (hdistinct : (shares.map party).Nodup)

include hdistinct

theorem eq_of_party {i j : Fin shares.length}
    (h : (shares.get i).party = (shares.get j).party) : i = j :=
  List.nodup_iff_injective_get.mp (List.Nodup.of_map _ hdistinct)
    (List.inj_on_of_nodup_map hdistinct (List.get_mem _ _) (List.get_mem _ _) h)

/-- The product over the other shares is the one over the other positions. -/
theorem prod_others {M : Type} [CommMonoid M] (i : Fin shares.length) (f : CapabilityKeyShare → M) :
    (shares.map fun other => if other.party = (shares.get i).party then 1 else f other).prod =
      ∏ j ∈ Finset.univ.erase i, f (shares.get j) := by
  rw [← Fin.prod_univ_fun_getElem]
  refine (Finset.prod_erase Finset.univ (a := i) (f := fun j =>
    if (shares.get j).party = (shares.get i).party then 1 else f (shares.get j))
    (if_pos rfl)).symm.trans ?_
  refine Finset.prod_congr rfl fun j hj => if_neg fun hparty => ?_
  exact Finset.ne_of_mem_erase hj (eq_of_party hdistinct hparty)

variable (hparties : ∀ share ∈ shares, share.party < mpcParties)

include hparties

theorem separated_nodeAt : Separated (nodeAt shares) := fun _ _ hij =>
  isUnit_sub_node (hparties _ (List.get_mem _ _)) (hparties _ (List.get_mem _ _))
    fun hparty => hij (eq_of_party hdistinct hparty)

/-- **The loop computes the Lagrange weights at zero.** -/
theorem lagrange_weights : LagrangeAtZero (nodeAt shares) fun i =>
    numerator shares (shares.get i) * (denominator shares (shares.get i))⁻¹ := by
  intro i
  have hdenominator : denominator shares (shares.get i) =
      ∏ j ∈ Finset.univ.erase i, (nodeAt shares i - nodeAt shares j) :=
    prod_others hdistinct i fun other => (shares.get i).node - other.node
  have hnumerator : numerator shares (shares.get i) =
      ∏ j ∈ Finset.univ.erase i, (0 - nodeAt shares j) := by
    rw [numerator, prod_others hdistinct i fun other => -other.node]
    exact Finset.prod_congr rfl fun j _ => (zero_sub _).symm
  have hunit : IsUnit (denominator shares (shares.get i)) := by
    rw [hdenominator]
    refine (Finset.univ.erase i).prod_induction _ IsUnit (fun _ _ => IsUnit.mul) isUnit_one ?_
    exact fun j hj => separated_nodeAt hdistinct hparties i j (Finset.ne_of_mem_erase hj).symm
  rw [← hdenominator, ← hnumerator, mul_assoc, ZMod.inv_mul_of_unit _ hunit, mul_one]

/-- The loop adds up to the value at zero of the polynomial its shares are on. -/
theorem sum_terms {key : Coefficients} (hlength : 3 ≤ shares.length)
    (hvalues : ∀ share ∈ shares, canonicalScalar share.value = .ok (evaluate key share.node)) :
    ∃ terms, shares.mapM (lagrangeTerm shares) = .ok terms ∧ terms.sum = key.constant := by
  have hterms : ∀ share ∈ shares, lagrangeTerm shares share =
      .ok (evaluate key share.node * numerator shares share * (denominator shares share)⁻¹) := by
    intro share hshare
    rw [lagrangeTerm, hvalues share hshare]
    rfl
  refine ⟨_, mapM_eq_ok_map hterms, ?_⟩
  -- the polynomial of the coefficients has fewer coefficients than there are shares
  let p : Scalar[X] := C key.quadratic * X ^ 2 + C key.linear * X + C key.constant
  have heval (x : Scalar) : p.eval x = evaluate key x := by
    simp only [p, evaluate, Polynomial.eval_add, Polynomial.eval_mul, Polynomial.eval_pow,
      Polynomial.eval_X, Polynomial.eval_C]
    ring
  have hdegree : p.degree < Fintype.card (Fin shares.length) := by
    rw [Fintype.card_fin]
    exact degree_quadratic_lt.trans_le (by exact_mod_cast hlength)
  have hsum := (lagrange_weights hdistinct hparties).sum_eval
    (separated_nodeAt hdistinct hparties) hdegree
  rw [← Fin.sum_univ_fun_getElem]
  have hzero : p.eval 0 = key.constant := by
    rw [heval, evaluate]
    ring
  rw [← hzero, ← hsum]
  refine Finset.sum_congr rfl fun i _ => ?_
  rw [heval, mul_assoc, mul_comm]
  rfl

end Distinct

/-! ## What the checks give -/

section Checks

variable [NodeCrypto] {manifest : EdgeOrderManifest} {now : Nat} {u : Unit}

theorem checkShares_eq_ok {parties : Finset Nat} :
    checkShares manifest now parties shares = .ok u ↔
      (∀ share ∈ shares, share.party ∉ parties) ∧ (shares.map party).Nodup ∧
        ∀ share ∈ shares, share.verify manifest share.party now = .ok () := by
  induction shares generalizing parties with
  | nil => simp [checkShares]
  | cons share rest ih =>
    simp only [checkShares, ok_rules, ih, Finset.mem_insert, not_or, List.forall_mem_cons,
      List.map_cons, List.nodup_cons, List.mem_map, not_exists, not_and]
    constructor
    · rintro ⟨-, hnew, ⟨⟩, hverify, hothers, hnodup, hrest⟩
      exact ⟨⟨hnew, fun other hother => (hothers other hother).2⟩,
        ⟨fun other hother heq => (hothers other hother).1 heq, hnodup⟩, hverify, hrest⟩
    · rintro ⟨⟨hnew, hothers⟩, ⟨hne, hnodup⟩, hverify, hrest⟩
      exact ⟨(), hnew, (), hverify,
        fun other hother => ⟨fun heq => hne other hother heq, hothers other hother⟩, hnodup, hrest⟩

/-- What a verified share has checked of its addressing. -/
theorem verify_ok {share : CapabilityKeyShare} {expected : Nat}
    (h : share.verify manifest expected now = .ok u) :
    manifest.verify now = .ok () ∧ share.party = expected ∧ share.party < mpcParties ∧
      share.orderCommitment = manifest.commitment ∧
      NodeCrypto.checkFeldman manifest share = .ok () := by
  simp only [verify, ok_rules] at h
  obtain ⟨⟨⟩, hmanifest, -, ⟨-, hparty, hbound, hcommitment, -⟩, ⟨⟩, hfeldman, -⟩ := h
  exact ⟨hmanifest, hparty, hbound, hcommitment, hfeldman⟩

variable {G : Type} [AddCommGroup G] [Module Scalar G] [DecidableEq G] {suite : EdgeSuite G}

omit [NodeCrypto] in
/-- **An accepted share is on the committed polynomial.** -/
theorem value_of_checkFeldman {key : Coefficients} {share : CapabilityKeyShare}
    (hdecode : ∀ point, suite.decompress (suite.compress point) = some point)
    (horder : ∀ scalar : Scalar, scalar • suite.basepoint = 0 → scalar = 0)
    (hkey : manifest.settlementKeyCommitments = suite.keyCommitments key)
    (h : suite.checkFeldman manifest share = .ok u) :
    canonicalScalar share.value = .ok (evaluate key share.node) := by
  simp only [EdgeSuite.checkFeldman, ok_rules, hkey] at h
  obtain ⟨scalar, hscalar, expected, hexpected, heq⟩ := h
  have hcombined : suite.combine share.node (suite.keyCommitments key) 1 0 =
      .ok (evaluate key share.node • suite.basepoint) := by
    simp only [EdgeSuite.combine, EdgeSuite.keyCommitments, hdecode, okOr, bind, Except.bind,
      Except.ok.injEq]
    simp only [evaluate]
    module
  rw [hcombined] at hexpected
  rw [← Except.ok.inj hexpected, ← sub_eq_zero, ← sub_smul] at heq
  rw [hscalar, sub_eq_zero.mp (horder _ heq)]

omit [NodeCrypto] in
/-- A list of different parties has at most all of them. -/
theorem length_le_parties (hdistinct : (shares.map party).Nodup)
    (hparties : ∀ share ∈ shares, share.party < mpcParties) : shares.length ≤ mpcParties := by
  have hsubset : (shares.map party) ⊆ List.range mpcParties := by
    intro party hparty
    obtain ⟨share, hshare, rfl⟩ := List.mem_map.mp hparty
    exact List.mem_range.mpr (hparties share hshare)
  have hle := (List.subperm_of_subset hdistinct hsubset).length_le
  rwa [List.length_map, List.length_range] at hle

/-- **The capability key does not depend on the quorum.** For every key and coefficients that the
manifest commits to: three or more verified shares of different parties, in any order, give the
key; fewer, a repeated party or a share of another order give none. -/
theorem reconstruct_key (suite : EdgeSuite G)
    (hdecode : ∀ point, suite.decompress (suite.compress point) = some point)
    (horder : ∀ scalar : Scalar, scalar • suite.basepoint = 0 → scalar = 0)
    (hfeldman : ∀ manifest share,
      NodeCrypto.checkFeldman manifest share = suite.checkFeldman manifest share)
    (key : Coefficients) (hne : key.constant ≠ 0) (manifest : EdgeOrderManifest)
    (hkey : manifest.settlementKeyCommitments = suite.keyCommitments key) (now : Nat) :
    (∀ shares : List CapabilityKeyShare, settlementKeyThreshold ≤ shares.length →
      (shares.map party).Nodup →
      (∀ share ∈ shares, ∃ expected, share.verify manifest expected now = .ok ()) →
        reconstructSettlementCapabilityKey suite manifest shares now =
          .ok (scalarBytes key.constant)) ∧
    ∀ shares : List CapabilityKeyShare, (shares.length < settlementKeyThreshold ∨
      ¬(shares.map party).Nodup ∨
      ∃ share ∈ shares, share.orderCommitment ≠ manifest.commitment) →
        ∃ e, reconstructSettlementCapabilityKey suite manifest shares now = .error e := by
  constructor
  · intro shares hlength hdistinct hverified
    have hverify : ∀ share ∈ shares, share.verify manifest share.party now = .ok () := by
      intro share hshare
      obtain ⟨expected, h⟩ := hverified share hshare
      rwa [(verify_ok h).2.1]
    have hparties : ∀ share ∈ shares, share.party < mpcParties := fun share hshare =>
      (verify_ok (hverify share hshare)).2.2.1
    have hvalues : ∀ share ∈ shares,
        canonicalScalar share.value = .ok (evaluate key share.node) := by
      intro share hshare
      have hfield := (verify_ok (hverify share hshare)).2.2.2.2
      rw [hfeldman] at hfield
      exact value_of_checkFeldman hdecode horder hkey hfield
    obtain ⟨first, hfirst⟩ := List.exists_mem_of_length_pos (lt_of_lt_of_le (by decide) hlength)
    obtain ⟨terms, hterms, hsum⟩ := sum_terms hdistinct hparties hlength hvalues
    have hchecked : checkShares manifest now ∅ shares = .ok () := checkShares_eq_ok.mpr
      ⟨fun share _ => Finset.notMem_empty share.party, hdistinct, hverify⟩
    unfold reconstructSettlementCapabilityKey
    simp only [ok_rules]
    refine ⟨(), (verify_ok (hverify first hfirst)).1, (),
      ⟨hlength, length_le_parties hdistinct hparties⟩, (), hchecked, terms, hterms, (), ?_, ?_⟩
    · rw [hsum, hkey]
      exact ⟨hne, rfl⟩
    · rw [hsum]
  · intro shares hbad
    cases hrun : reconstructSettlementCapabilityKey suite manifest shares now with
    | error e => exact ⟨e, rfl⟩
    | ok found =>
      simp only [reconstructSettlementCapabilityKey, ok_rules] at hrun
      obtain ⟨-, -, -, ⟨hlength, -⟩, ⟨⟩, hchecked, -⟩ := hrun
      obtain ⟨-, hdistinct, hverify⟩ := checkShares_eq_ok.mp hchecked
      rcases hbad with hshort | hrepeated | ⟨share, hshare, hother⟩
      · exact absurd hlength (not_le.mpr hshort)
      · exact absurd hdistinct hrepeated
      · exact absurd (verify_ok (hverify share hshare)).2.2.2.1 hother

end Checks

/-! ## A key of three nodes

The group is the scalar field itself, with its own encoding. -/

section Sample

/-- The scalars as a group. -/
def scalarSuite : EdgeSuite Scalar where
  basepoint := 1
  compress := scalarBytes
  decompress encoded := (canonicalScalar encoded).toOption

@[reducible] def feldmanCrypto : NodeCrypto :=
  { transparentNodeCrypto with checkFeldman := scalarSuite.checkFeldman }

attribute [local instance] feldmanCrypto

def sampleKey : Coefficients := ⟨5, 3, 2⟩

/-- The sample order with a commitment to this key. -/
def keyManifest : EdgeOrderManifest :=
  let draft := { sampleDraft 1 with
    settlementKeyCommitments := scalarSuite.keyCommitments sampleKey }
  { draft with
    commitment := draft.derivedCommitment
    signature := (15 : Digest32).bytes ++
      (asBytes "OCLOB:EDGE-MANIFEST-SIGNATURE:v2" ++ draft.derivedCommitment.bytes) }

def keyShare (party : Nat) : CapabilityKeyShare :=
  let draft := { sampleUnsignedCapability 1 party with
    orderCommitment := keyManifest.commitment
    value := scalarBytes (evaluate sampleKey (party + 1 : Nat)) }
  { draft with signature := (15 : Digest32).bytes ++ draft.signatureBody }

theorem reconstruct_key_sample :
    reconstructSettlementCapabilityKey scalarSuite keyManifest [keyShare 4, keyShare 0, keyShare 2]
      1000 = .ok (scalarBytes sampleKey.constant) := by
  have hdecode : ∀ point, scalarSuite.decompress (scalarSuite.compress point) = some point := by
    intro point
    simp only [scalarSuite, canonicalScalar_scalarBytes]
    rfl
  have horder : ∀ scalar : Scalar, scalar • scalarSuite.basepoint = 0 → scalar = 0 := by
    intro scalar h
    rwa [scalarSuite, smul_eq_mul, mul_one] at h
  have hverify : ∀ share ∈ [keyShare 4, keyShare 0, keyShare 2],
      share.verify keyManifest share.party 1000 = .ok () := by decide +kernel
  have hdistinct : ([keyShare 4, keyShare 0, keyShare 2].map party).Nodup := by
    decide
  have hne : sampleKey.constant ≠ 0 := by decide +kernel
  have hkey : keyManifest.settlementKeyCommitments = scalarSuite.keyCommitments sampleKey := by
    unfold keyManifest
    rfl
  have hfeldman : ∀ manifest share, NodeCrypto.checkFeldman manifest share =
      scalarSuite.checkFeldman manifest share := fun _ _ => rfl
  have hquorum := (reconstruct_key scalarSuite hdecode horder hfeldman sampleKey hne keyManifest
    hkey 1000).1
  exact hquorum _ le_rfl hdistinct fun share hshare => ⟨share.party, hverify share hshare⟩

end Sample

end Oclob.Edge
