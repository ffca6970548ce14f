import Ugk.Native.PyValue

/-!
# The legend: projection vocabulary of compressed receipt fields

`ugk/storage/binding.py`: the legend table, the four compression maps derived from it, and the
expansion of a stored value on read.
-/

namespace Ugk

/-- One legend entry. -/
structure LegendEntry where
  csilId : Int
  slug : String
  render : String
  tier : String

/-- `_LEGEND_ENTRIES` -/
def legendEntries : List LegendEntry := [
  ⟨1001, "inv-ul-g-01", "UL-G-01", "invariant"⟩,
  ⟨1002, "inv-ul-s-01", "UL-S-01", "invariant"⟩,
  ⟨1003, "inv-ul-s-02", "UL-S-02", "invariant"⟩,
  ⟨1004, "inv-ul-s-03", "UL-S-03", "invariant"⟩,
  ⟨1005, "inv-ul-s-04", "UL-S-04", "invariant"⟩,
  ⟨1006, "inv-gk-s-01", "GK-S-01", "invariant"⟩,
  ⟨1007, "inv-gk-s-02", "GK-S-02", "invariant"⟩,
  ⟨1008, "inv-cm-gs-01", "CM-GS-01", "invariant"⟩,
  ⟨1009, "inv-cm-gs-02", "CM-GS-02", "invariant"⟩,
  ⟨1010, "inv-cm-op-01", "CM-OP-01", "invariant"⟩,
  ⟨1011, "inv-chc-s-01", "CHC-S-01", "invariant"⟩,
  ⟨1012, "inv-chc-s-02", "CHC-S-02", "invariant"⟩,
  ⟨1013, "inv-chc-s-03", "CHC-S-03", "invariant"⟩,
  ⟨1014, "inv-dm-s-01", "DM-S-01", "invariant"⟩,
  ⟨1015, "inv-dm-s-03", "DM-S-03", "invariant"⟩,
  ⟨1016, "inv-cr-s-01", "CR-S-01", "invariant"⟩,
  ⟨1017, "inv-cr-s-02", "CR-S-02", "invariant"⟩,
  ⟨1018, "inv-esa-s-01", "ESA-S-01", "invariant"⟩,
  ⟨1019, "inv-eh-s-01", "EH-S-01", "invariant"⟩,
  ⟨1020, "inv-eh-s-02", "EH-S-02", "invariant"⟩,
  ⟨1021, "inv-adv-s-01", "ADV-S-01", "invariant"⟩,
  ⟨1022, "inv-cm-dim-01", "CM-DIM-01", "invariant"⟩,
  ⟨1023, "inv-ctr-s-07", "CTR-S-07", "invariant"⟩,
  ⟨1024, "inv-ctr-s-01", "CTR-S-01", "invariant"⟩,
  ⟨1025, "inv-srsa-s-01", "SRSA-S-01", "invariant"⟩,
  ⟨1026, "inv-ul-l-01", "UL-L-01", "invariant"⟩,
  ⟨1027, "inv-legend-s-01", "LEGEND-S-01", "invariant"⟩,
  ⟨1028, "inv-legend-s-02", "LEGEND-S-02", "invariant"⟩,
  ⟨1029, "inv-legend-s-03", "LEGEND-S-03", "invariant"⟩,
  ⟨1030, "inv-legend-s-04", "LEGEND-S-04", "invariant"⟩,
  ⟨1031, "inv-dw-s-01", "DW-S-01", "invariant"⟩,
  ⟨1032, "inv-dw-s-02", "DW-S-02", "invariant"⟩,
  ⟨2001, "dim-cm-gs-01", "CM-GS-01", "dimension"⟩,
  ⟨2002, "dim-cm-op-01", "CM-OP-01", "dimension"⟩,
  ⟨2003, "dim-cm-dm-01", "CM-DM-01", "dimension"⟩,
  ⟨2004, "dim-cm-dep-01", "CM-DEP-01", "dimension"⟩,
  ⟨2005, "dim-cm-fm-01", "CM-FM-01", "dimension"⟩,
  ⟨2006, "dim-cm-st-01", "CM-ST-01", "dimension"⟩,
  ⟨2007, "dim-cm-br-01", "CM-BR-01", "dimension"⟩,
  ⟨2008, "dim-cm-sn-01", "CM-SN-01", "dimension"⟩,
  ⟨2009, "dim-cm-cr-01", "CM-CR-01", "dimension"⟩,
  ⟨2010, "dim-cm-gk-01", "CM-GK-01", "dimension"⟩,
  ⟨2011, "dim-cm-vs-01", "CM-VS-01", "dimension"⟩,
  ⟨2012, "dim-cm-ic-01", "CM-IC-01", "dimension"⟩,
  ⟨3001, "op-session-open", "session_open", "op"⟩,
  ⟨3002, "op-session-close", "session_close", "op"⟩,
  ⟨3003, "op-crp-evidence", "crp_evidence", "op"⟩,
  ⟨3004, "op-test-checkpoint", "test_checkpoint", "op"⟩,
  ⟨3005, "op-gate-admit", "gate_admit", "op"⟩,
  ⟨3006, "op-gate-refuse", "gate_refuse", "op"⟩,
  ⟨3007, "op-legend-seal", "legend_seal", "op"⟩,
  ⟨3008, "op-session-summary", "session_summary", "op"⟩,
  ⟨4001, "intent-orient", "orient", "vocab"⟩,
  ⟨4002, "intent-synthesize", "synthesize", "vocab"⟩,
  ⟨4003, "intent-verify", "verify", "vocab"⟩,
  ⟨4004, "intent-claim", "claim", "vocab"⟩,
  ⟨4005, "intent-transform", "transform", "vocab"⟩,
  ⟨4006, "intent-conform", "conform", "vocab"⟩,
  ⟨4007, "intent-annotate", "annotate", "vocab"⟩,
  ⟨4008, "intent-observe", "observe", "vocab"⟩,
  ⟨4009, "intent-resolve", "resolve", "vocab"⟩,
  ⟨4010, "intent-propose", "propose", "vocab"⟩,
  ⟨4011, "intent-evaluate", "evaluate", "vocab"⟩,
  ⟨4012, "intent-classify", "classify", "vocab"⟩,
  ⟨4013, "intent-derive", "derive", "vocab"⟩,
  ⟨4014, "intent-compare", "compare", "vocab"⟩,
  ⟨4015, "intent-define", "define", "vocab"⟩,
  ⟨4016, "intent-infer", "infer", "vocab"⟩,
  ⟨4017, "intent-enumerate", "enumerate", "vocab"⟩,
  ⟨4018, "meta-effective-authority", "effective_authority", "vocab"⟩,
  ⟨4019, "meta-latent-authority", "latent_authority", "vocab"⟩,
  ⟨4020, "meta-enabler-orientation", "enabler_orientation", "vocab"⟩,
  ⟨4021, "meta-phi-scalar", "phi_scalar", "vocab"⟩,
  ⟨4022, "meta-authority-model", "authority_model", "vocab"⟩,
  ⟨4023, "meta-constitutive-gate", "constitutive_gate", "vocab"⟩,
  ⟨4024, "meta-ceremonial-gate", "ceremonial_gate", "vocab"⟩,
  ⟨4025, "meta-probe-result", "constitutive_probe_result", "vocab"⟩,
  ⟨4026, "meta-posture-claim", "posture_claim", "vocab"⟩,
  ⟨4027, "meta-governance-posture", "governance_posture", "vocab"⟩,
  ⟨4028, "meta-posture-vector", "posture_vector", "vocab"⟩,
  ⟨6001, "csil-layer", "CSIL", "meta"⟩,
  ⟨6002, "gti-resolver", "GTI", "meta"⟩,
  ⟨6003, "csil-coordinate", "csil_coordinate", "meta"⟩,
  ⟨6004, "coordinate-shadowing", "coordinate_shadowing", "meta"⟩,
  ⟨6005, "semantic-topology", "semantic_topology", "meta"⟩,
  ⟨6006, "leg-ex-marker", "LEG-EX", "meta"⟩,
  ⟨4101, "juris-session", "session", "vocab"⟩,
  ⟨4102, "juris-corpus", "corpus", "vocab"⟩,
  ⟨4103, "juris-operator", "operator", "vocab"⟩,
  ⟨4104, "juris-system", "system", "vocab"⟩,
  ⟨4105, "juris-kernel", "kernel", "vocab"⟩,
  ⟨4301, "conf-high", "high", "vocab"⟩,
  ⟨4302, "conf-medium", "medium", "vocab"⟩,
  ⟨4303, "conf-low", "low", "vocab"⟩,
  ⟨5001, "status-uninitialized", "UNINITIALIZED", "status"⟩,
  ⟨5002, "status-active", "ACTIVE", "status"⟩,
  ⟨9001, "result-admit", "ADMIT", "warrant_result"⟩,
  ⟨9002, "result-refuse", "REFUSE", "warrant_result"⟩,
  ⟨9101, "analysis-auth-sufficient", "authority_tier_sufficient", "warrant_result"⟩,
  ⟨9102, "analysis-juris-valid", "jurisdiction_valid", "warrant_result"⟩,
  ⟨9103, "analysis-inv-satisfied", "invariant_satisfied", "warrant_result"⟩]

/-- `LEGEND_BY_ID.get(cid)`: of entries with one id, the last one. -/
def legendById (cid : Int) : Option LegendEntry :=
  legendEntries.reverse.find? fun e => e.csilId == cid

/-- The four receipt fields that are compressed. -/
inductive CompressedField where
  | op
  | intent
  | jurisdiction
  | confidence
deriving DecidableEq

/-- The entries a field's compression map is built from. -/
def CompressedField.covers (f : CompressedField) (e : LegendEntry) : Bool :=
  match f with
  | .op => e.tier == "op"
  | .intent => e.tier == "vocab" && "intent-".toList.isPrefixOf e.slug.toList
  | .jurisdiction => e.tier == "vocab" && "juris-".toList.isPrefixOf e.slug.toList
  | .confidence => e.tier == "vocab" && "conf-".toList.isPrefixOf e.slug.toList

/-- `FIELD_COMPRESS_MAPS[f].get(v)` -/
def compressedId (f : CompressedField) (v : String) : Option Int :=
  (legendEntries.reverse.find? fun e => f.covers e && e.render == v).map LegendEntry.csilId

/-- `str(FIELD_COMPRESS_MAPS[f].get(v, v))` -/
def compressField (f : CompressedField) (v : String) : String :=
  match compressedId f v with
  | some cid => String.ofList (Json.intText cid)
  | none => v

/-- `_expand` of `_row_to_receipt`: an integer string that is a legend id reads as its render. -/
def expand (env : Env) (val : String) : String :=
  match pyInt env val with
  | some cid =>
    match legendById cid with
    | some entry => entry.render
    | none => val
  | none => val

/-- The legend as the JSON value `_legend_canonical` prints, in id order. -/
def legendValue : PyVal :=
  .list ((legendEntries.insertionSort fun a b => a.csilId ≤ b.csilId).map fun e =>
    .dict [(.str "csil_id", .int e.csilId), (.str "slug", .str e.slug),
      (.str "render", .str e.render), (.str "tier", .str e.tier)])

end Ugk
