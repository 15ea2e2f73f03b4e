import SynapsorRunner.JsonText
import SynapsorRunner.SharedLedger

/-!
The tables that the SQLite store shares through the Postgres ledger: their columns as
the schema has them, the keys of the columns in the JSON object of a row, and what every
table's columns have in common (`tables_wellFormed`), on which the way of a row through
the ledger rests.
-/
namespace SynapsorRunner.LedgerTables
open SynapsorRunner.NumberText SynapsorRunner.JsonText SynapsorRunner.SharedLedger

/-! ### The tables -/

/-- The tables that `sharedLedgerEntries` writes. -/
inductive ExportedTable where
  | proposals
  | writebackIntents
  | record (table : LedgerTable)
  deriving DecidableEq, Repr

/-- In the order of `sharedLedgerEntries`. -/
def exportedTables : List ExportedTable :=
  [.proposals, .record .proposalEvents, .record .approvals, .record .writebackJobs, .writebackIntents,
    .record .idempotencyReceipts, .record .writebackReceipts, .record .evidenceBundles, .record .evidenceItems,
    .record .queryAudit, .record .exploreBudgetReservations, .record .replayRecords,
    .record .shadowHumanActions, .record .shadowStudies, .record .shadowStudyCases, .record .shadowOutcomes,
    .record .workerQueue, .record .attentionEvents, .record .attentionItems, .record .notificationDeliveries,
    .record .runnerState, .record .policyRecommendations, .record .cloudOutbox, .record .cloudGovernanceEvents]

theorem mem_exportedTables (table : ExportedTable) : table ∈ exportedTables := by
  cases table with
  | proposals => decide
  | writebackIntents => decide
  | record table => cases table <;> decide

def ExportedTable.name : ExportedTable → String
  | .proposals => "proposals"
  | .record .proposalEvents => "proposal_events"
  | .record .approvals => "approvals"
  | .record .writebackJobs => "writeback_jobs"
  | .writebackIntents => "writeback_intents"
  | .record .idempotencyReceipts => "idempotency_receipts"
  | .record .writebackReceipts => "writeback_receipts"
  | .record .evidenceBundles => "evidence_bundles"
  | .record .evidenceItems => "evidence_items"
  | .record .queryAudit => "query_audit"
  | .record .exploreBudgetReservations => "explore_budget_reservations"
  | .record .replayRecords => "replay_records"
  | .record .shadowHumanActions => "shadow_human_actions"
  | .record .shadowStudies => "shadow_studies"
  | .record .shadowStudyCases => "shadow_study_cases"
  | .record .shadowOutcomes => "shadow_outcomes"
  | .record .workerQueue => "worker_queue"
  | .record .attentionEvents => "attention_events"
  | .record .attentionItems => "attention_items"
  | .record .notificationDeliveries => "notification_deliveries"
  | .record .runnerState => "runner_state"
  | .record .policyRecommendations => "policy_recommendations"
  | .record .cloudOutbox => "cloud_outbox"
  | .record .cloudGovernanceEvents => "cloud_governance_events"

/-- The kinds of `sharedLedgerKindToTable`. -/
def ExportedTable.kind : ExportedTable → String
  | .proposals => "proposal"
  | .record .proposalEvents => "proposal_event"
  | .record .approvals => "approval"
  | .record .writebackJobs => "writeback_job"
  | .writebackIntents => "writeback_intent"
  | .record .idempotencyReceipts => "idempotency_receipt"
  | .record .writebackReceipts => "writeback_receipt"
  | .record .evidenceBundles => "evidence_bundle"
  | .record .evidenceItems => "evidence_item"
  | .record .queryAudit => "query_audit"
  | .record .exploreBudgetReservations => "explore_budget_reservation"
  | .record .replayRecords => "replay_record"
  | .record .shadowHumanActions => "shadow_human_action"
  | .record .shadowStudies => "shadow_study"
  | .record .shadowStudyCases => "shadow_study_case"
  | .record .shadowOutcomes => "shadow_outcome"
  | .record .workerQueue => "worker_queue_item"
  | .record .attentionEvents => "attention_event"
  | .record .attentionItems => "attention_item"
  | .record .notificationDeliveries => "notification_delivery"
  | .record .runnerState => "runner_state"
  | .record .policyRecommendations => "policy_recommendation"
  | .record .cloudOutbox => "cloud_outbox_event"
  | .record .cloudGovernanceEvents => "cloud_governance_event"

/-- The column that the rows of an export are ordered by. -/
def ExportedTable.created : ExportedTable → Text
  | .record .attentionItems => ascii "first_seen_at"
  | .record .runnerState => ascii "updated_at"
  | _ => ascii "created_at"

/-- The order of `sharedLedgerRestoreRank`. -/
def restoreOrder : List ExportedTable :=
  [.proposals, .record .evidenceBundles, .record .evidenceItems, .record .queryAudit,
    .record .exploreBudgetReservations, .record .approvals, .record .writebackJobs, .writebackIntents,
    .record .idempotencyReceipts, .record .writebackReceipts, .record .replayRecords, .record .proposalEvents,
    .record .shadowStudies, .record .shadowStudyCases, .record .shadowHumanActions, .record .shadowOutcomes,
    .record .workerQueue, .record .attentionEvents, .record .attentionItems, .record .notificationDeliveries,
    .record .runnerState, .record .policyRecommendations, .record .cloudOutbox, .record .cloudGovernanceEvents]

/-! ### Columns -/

def sharedLedgerJsonColumns : List Text :=
  ["change_set_json", "payload_json", "identity_json", "job_json", "intent_json", "result_json", "receipt_json",
    "item_json", "value_json", "patch_json", "selected_capabilities_json", "proposed_effect_json",
    "actual_effect_json", "details_json", "acknowledgement_identity_json"].map ascii

/-- A column without the ending `_json`. -/
def normalizedKey (column : Text) : Text :=
  if (ascii "_json").isSuffixOf column then column.take (column.length - 5) else column

/-- The key of a column in the object of a row. -/
def payloadKey (column : Text) : Text := if column ∈ sharedLedgerJsonColumns then normalizedKey column else column

def tableKey : Text := ascii "table"

structure SharedLedgerRestoreSpec where
  conflict : Text
  columns : List Text
  required : List Text

def restoreSpec (conflict : String) (columns required : List String) : SharedLedgerRestoreSpec :=
  ⟨ascii conflict, columns.map ascii, required.map ascii⟩

/-- The columns of the table, its key, and the columns that are NOT NULL. -/
def sharedLedgerRestoreSpecs : ExportedTable → SharedLedgerRestoreSpec
  | .proposals => restoreSpec "proposal_id"
      ["proposal_id", "proposal_version", "proposal_hash", "action", "state", "tenant_id", "principal",
       "capability", "interaction_id", "tool_call_id", "business_object", "object_id", "source_kind",
       "source_id", "source_schema", "source_table", "source_database_mutated", "change_set_json", "created_at",
       "updated_at"]
      ["proposal_id", "proposal_version", "proposal_hash", "action", "state", "tenant_id", "business_object",
       "object_id", "source_kind", "source_id", "source_schema", "source_table", "source_database_mutated",
       "change_set_json", "created_at", "updated_at"]
  | .record .proposalEvents => restoreSpec "event_id"
      ["event_id", "proposal_id", "kind", "actor", "payload_json", "created_at"]
      ["event_id", "proposal_id", "kind", "actor", "payload_json", "created_at"]
  | .record .approvals => restoreSpec "approval_id"
      ["approval_id", "proposal_id", "proposal_version", "proposal_hash", "approver", "status", "reason",
       "identity_json", "decision_hash", "signature", "integrity_hash", "freshness_proof_digest", "created_at"]
      ["approval_id", "proposal_id", "proposal_version", "proposal_hash", "approver", "status", "created_at"]
  | .record .writebackJobs => restoreSpec "writeback_job_id"
      ["writeback_job_id", "proposal_id", "proposal_hash", "status", "job_json", "created_at", "updated_at"]
      ["writeback_job_id", "proposal_id", "proposal_hash", "status", "job_json", "created_at", "updated_at"]
  | .writebackIntents => restoreSpec "intent_id"
      ["intent_id", "idempotency_key", "writeback_job_id", "proposal_id", "proposal_hash", "runner_id",
       "operation", "status", "intent_json", "result_json", "reconciliation_reason", "created_at", "updated_at"]
      ["intent_id", "idempotency_key", "writeback_job_id", "proposal_id", "proposal_hash", "runner_id",
       "operation", "status", "intent_json", "created_at", "updated_at"]
  | .record .idempotencyReceipts => restoreSpec "idempotency_key"
      ["idempotency_key", "writeback_job_id", "proposal_id", "receipt_status", "receipt_json", "created_at"]
      ["idempotency_key", "writeback_job_id", "proposal_id", "receipt_status", "receipt_json", "created_at"]
  | .record .writebackReceipts => restoreSpec "receipt_id"
      ["receipt_id", "writeback_job_id", "proposal_id", "runner_id", "status", "idempotency_key",
       "source_database_mutated", "receipt_json", "created_at"]
      ["receipt_id", "writeback_job_id", "proposal_id", "runner_id", "status", "idempotency_key",
       "source_database_mutated", "receipt_json", "created_at"]
  | .record .evidenceBundles => restoreSpec "evidence_bundle_id"
      ["evidence_bundle_id", "proposal_id", "tenant_id", "principal", "capability", "source_id", "source_table",
       "business_object", "object_id", "query_fingerprint", "payload_json", "created_at"]
      ["evidence_bundle_id", "tenant_id", "payload_json", "created_at"]
  | .record .evidenceItems => restoreSpec "evidence_item_id"
      ["evidence_item_id", "evidence_bundle_id", "item_json", "created_at"]
      ["evidence_item_id", "evidence_bundle_id", "item_json", "created_at"]
  | .record .queryAudit => restoreSpec "audit_id"
      ["audit_id", "proposal_id", "evidence_bundle_id", "tenant_id", "principal", "capability",
       "business_object", "object_id", "primary_key_value", "source_id", "query_fingerprint", "table_name",
       "row_count", "payload_json", "created_at"]
      ["audit_id", "source_id", "query_fingerprint", "table_name", "row_count", "payload_json", "created_at"]
  | .record .exploreBudgetReservations => restoreSpec "reservation_id"
      ["reservation_id", "scope_fingerprint", "resource_id", "variant_fingerprint", "requires_differencing",
       "differencing_counted", "reserved_cells", "accounted_cells", "status", "created_at", "completed_at"]
      ["reservation_id", "scope_fingerprint", "resource_id", "variant_fingerprint", "requires_differencing",
       "differencing_counted", "reserved_cells", "accounted_cells", "status", "created_at"]
  | .record .replayRecords => restoreSpec "replay_id"
      ["replay_id", "proposal_id", "payload_json", "created_at"]
      ["replay_id", "proposal_id", "payload_json", "created_at"]
  | .record .shadowHumanActions => restoreSpec "action_id"
      ["action_id", "proposal_id", "actor", "patch_json", "notes", "created_at"]
      ["action_id", "proposal_id", "actor", "patch_json", "created_at"]
  | .record .shadowStudies => restoreSpec "study_id"
      ["study_id", "name", "description", "selected_capabilities_json", "starts_at", "ends_at", "status",
       "created_at", "updated_at"]
      ["study_id", "name", "selected_capabilities_json", "status", "created_at", "updated_at"]
  | .record .shadowStudyCases => restoreSpec "case_id"
      ["case_id", "study_id", "request_id", "proposal_id", "tenant_id", "principal", "capability",
       "business_object", "object_id", "evidence_bundle_id", "proposed_effect_json", "agent_result",
       "decision_reason", "risk_score", "amount_value", "created_at"]
      ["case_id", "study_id", "request_id", "tenant_id", "capability", "business_object", "object_id",
       "agent_result", "created_at"]
  | .record .shadowOutcomes => restoreSpec "outcome_id"
      ["outcome_id", "study_id", "request_id", "proposal_id", "tenant_id", "business_object", "object_id",
       "actor", "disposition", "actual_effect_json", "occurred_at", "source", "reference", "reason",
       "created_at"]
      ["outcome_id", "study_id", "request_id", "tenant_id", "business_object", "object_id", "actor",
       "disposition", "occurred_at", "source", "created_at"]
  | .record .workerQueue => restoreSpec "proposal_id"
      ["proposal_id", "status", "execution_mode", "contract_digest", "attempts", "max_attempts",
       "next_attempt_at", "lease_owner", "lease_id", "lease_expires_at", "last_error_code", "terminal_outcome",
       "created_at", "updated_at"]
      ["proposal_id", "status", "attempts", "max_attempts", "next_attempt_at", "created_at", "updated_at"]
  | .record .attentionEvents => restoreSpec "event_id"
      ["event_id", "schema_version", "event_type", "severity", "occurred_at", "environment", "proposal_id",
       "job_id", "operation_id", "correlation_id", "capability", "contract_digest", "attention_key",
       "attention_required", "immediate_default", "summary", "approval_source", "worker_state", "failure_class",
       "expires_at", "workbench_path", "details_json", "payload_hash", "created_at"]
      ["event_id", "schema_version", "event_type", "severity", "occurred_at", "environment",
       "attention_required", "immediate_default", "summary", "details_json", "payload_hash", "created_at"]
  | .record .attentionItems => restoreSpec "attention_id"
      ["attention_id", "attention_key", "status", "severity", "environment", "event_type", "capability",
       "contract_digest", "title", "occurrence_count", "first_event_id", "latest_event_id", "first_seen_at",
       "last_seen_at", "acknowledged_by", "acknowledged_at", "acknowledgement_identity_json",
       "acknowledgement_decision_hash", "acknowledgement_signature", "acknowledgement_integrity_hash",
       "resolved_at", "expires_at"]
      ["attention_id", "attention_key", "status", "severity", "environment", "event_type", "title",
       "occurrence_count", "first_event_id", "latest_event_id", "first_seen_at", "last_seen_at"]
  | .record .notificationDeliveries => restoreSpec "delivery_id"
      ["delivery_id", "sink_id", "event_id", "attention_id", "status", "attempts", "max_attempts",
       "next_attempt_at", "lease_owner", "lease_id", "lease_expires_at", "last_error_code",
       "external_reference", "delivered_at", "created_at", "updated_at"]
      ["delivery_id", "sink_id", "event_id", "status", "attempts", "max_attempts", "next_attempt_at",
       "created_at", "updated_at"]
  | .record .runnerState => restoreSpec "key"
      ["key", "value_json", "updated_at"]
      ["key", "value_json", "updated_at"]
  | .record .policyRecommendations => restoreSpec "recommendation_id"
      ["recommendation_id", "tenant_id", "capability", "policy", "base_contract_digest", "status",
       "payload_json", "integrity_hash", "created_at", "updated_at"]
      ["recommendation_id", "tenant_id", "capability", "policy", "base_contract_digest", "status",
       "payload_json", "integrity_hash", "created_at", "updated_at"]
  | .record .cloudOutbox => restoreSpec "event_id"
      ["event_id", "proposal_id", "sequence", "kind", "status", "payload_hash", "payload_json", "attempts",
       "max_attempts", "next_attempt_at", "lease_owner", "lease_expires_at", "last_error_code", "sent_at",
       "acknowledged_at", "created_at", "updated_at"]
      ["event_id", "sequence", "kind", "status", "payload_hash", "payload_json", "attempts", "max_attempts",
       "next_attempt_at", "created_at", "updated_at"]
  | .record .cloudGovernanceEvents => restoreSpec "event_id"
      ["event_id", "proposal_id", "cloud_proposal_id", "kind", "state", "authority", "payload_json",
       "integrity_hash", "created_at"]
      ["event_id", "proposal_id", "kind", "state", "authority", "payload_json", "integrity_hash", "created_at"]

def ExportedTable.spec (table : ExportedTable) : SharedLedgerRestoreSpec := sharedLedgerRestoreSpecs table

/-- The columns that identify and order rows hold no JSON and are there, and the object
    of a row has a key for each column, none of them the name of another column. -/
def SharedLedgerRestoreSpec.WellFormed (spec : SharedLedgerRestoreSpec) (created : Text) : Prop :=
  (spec.conflict ∈ spec.required ∧ spec.conflict ∉ sharedLedgerJsonColumns) ∧
    (created ∈ spec.required ∧ created ∉ sharedLedgerJsonColumns) ∧
    (∀ column ∈ spec.required, column ∈ spec.columns) ∧
    (tableKey :: spec.columns.map payloadKey).Nodup ∧
    (∀ column ∈ spec.columns, normalizedKey column = payloadKey column) ∧
    (∀ column ∈ spec.columns, ∀ other ∈ tableKey :: spec.columns.map payloadKey, other = column → payloadKey column = column)

instance (spec : SharedLedgerRestoreSpec) (created : Text) : Decidable (spec.WellFormed created) :=
  inferInstanceAs (Decidable (_ ∧ _))

theorem tables_wellFormed : ∀ table ∈ exportedTables, table.spec.WellFormed table.created := by
  intro table _
  rcases table with _ | _ | kept
  · decide
  · decide
  · cases kept <;> decide

theorem names_distinct : (exportedTables.map fun table => ascii table.name).Nodup := by decide

end SynapsorRunner.LedgerTables
