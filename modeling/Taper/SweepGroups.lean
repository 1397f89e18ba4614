import Taper.Grouping
import Taper.Services

set_option autoImplicit false

/-!
# The groups of a sweep

The sweeper groups a batch of expired rows by tenant and order and sends one
release for each group.
-/
namespace Taper.SweepGroups
open Messages Platform ReservationTables ServiceStack Services
open Grouping (Groups group)

def groupByOrder (rows : List Reservation) : Groups GroupKey Reservation := group groupKey rows

theorem groupByOrder_entries (rows : List Reservation) :
    ((groupByOrder rows).entries.map fun g => (g.1, g.2)).Perm (Services.groupByOrder rows) := by
  have entries := (Grouping.entries_group groupKey rows).map fun g => (g.1, g.2)
  rw [List.map_map] at entries
  exact entries

def request (g : Sigma fun _ : GroupKey => List Reservation) : ReleaseStockRequest :=
  releaseRequest g.1.tenant g.1.orderID g.2

def returned (req : ReleaseStockRequest) : List (String × String × StockLine) :=
  req.lines.map fun l => (req.tenantId, req.orderId, l)

def owed (row : Reservation) : String × String × StockLine :=
  (row.tenantID.text, row.orderID, rowLine row)

/-- The tenant ends at the colon, so the order may have colons of its own. -/
theorem compensationKey_injective {t t' : UUID} {o o' : String}
    (same : compensationKey t.text o = compensationKey t'.text o') : t = t' ∧ o = o' := by
  unfold compensationKey at same
  rw [String.append_assoc, String.append_assoc, String.append_assoc, String.append_assoc,
    String.append_right_inj, ← String.append_assoc, ← String.append_assoc] at same
  have before := congrArg (fun s => s.toList.takeWhile (· != ':')) same
  have behind := congrArg (fun s => s.toList.dropWhile (· != ':')) same
  simp only [key_takeWhile, key_dropWhile] at before behind
  exact ⟨text_injective (String.toList_inj.1 before),
    String.toList_inj.1 (List.cons.inj behind).2⟩

section Batch

variable {rows : List Reservation} {g g' : Sigma fun _ : GroupKey => List Reservation}

theorem returned_request (member : g ∈ (groupByOrder rows).entries) :
    returned (request g) = g.2.map owed := by
  rw [returned, request, releaseRequest, List.map_map]
  refine List.map_congr_left fun row own => ?_
  rw [Grouping.group_eq groupKey member] at own
  have key : groupKey row = g.1 := of_decide_eq_true (List.mem_filter.1 own).2
  rw [← key]
  rfl

theorem group_tenant (member : g ∈ (groupByOrder rows).entries) :
    ∃ t : UUID, g.1.tenant = t.text := by
  have known : g.1 ∈ groupByOrder rows := List.mem_map.2 ⟨g, member, rfl⟩
  obtain ⟨row, _, key⟩ := List.mem_map.1 ((Grouping.mem_group groupKey rows g.1).1 known)
  exact ⟨row.tenantID, by rw [← key]; rfl⟩

theorem request_key_injective (member : g ∈ (groupByOrder rows).entries)
    (member' : g' ∈ (groupByOrder rows).entries)
    (same : (request g).idempotencyKey = (request g').idempotencyKey) : g.1 = g'.1 := by
  obtain ⟨t, tenant⟩ := group_tenant member
  obtain ⟨t', tenant'⟩ := group_tenant member'
  have keys : compensationKey g.1.tenant g.1.orderID = compensationKey g'.1.tenant g'.1.orderID :=
    same
  rw [tenant, tenant'] at keys
  obtain ⟨rfl, order⟩ := compensationKey_injective keys
  change (⟨g.1.tenant, g.1.orderID⟩ : GroupKey) = ⟨g'.1.tenant, g'.1.orderID⟩
  rw [tenant, tenant', order]

end Batch

/-- In whatever order the groups are visited: together they are the batch, each is the part of
the batch with its tenant and order, the releases return what the rows hold, and no two share a
compensation key. -/
theorem sweep_partitions (rows : List Reservation)
    (visited : List (Sigma fun _ : GroupKey => List Reservation))
    (ranged : visited.Perm (groupByOrder rows).entries) :
    (visited.flatMap (·.2)).Perm rows ∧
    (∀ g ∈ visited, g.2 = rows.filter fun row => groupKey row = g.1) ∧
    (visited.map (·.1)).Nodup ∧
    ((visited.map request).flatMap returned).Perm (rows.map owed) ∧
    ((visited.map request).map (·.idempotencyKey)).Nodup := by
  have all : (visited.flatMap (·.2)).Perm rows :=
    (ranged.flatMap_right _).trans (Grouping.flatMap_group groupKey rows)
  have keys : (visited.map (·.1)).Nodup := (ranged.map _).nodup_iff.2 (groupByOrder rows).keys_nodup
  refine ⟨all, fun g member => Grouping.group_eq groupKey (ranged.mem_iff.1 member), keys, ?_, ?_⟩
  · have lines : (visited.map request).flatMap returned = (visited.flatMap (·.2)).map owed := by
      rw [List.flatMap_map, List.map_flatMap]
      exact List.flatMap_congr fun g member => returned_request (ranged.mem_iff.1 member)
    rw [lines]
    exact all.map owed
  · rw [List.map_map]
    refine (List.nodup_map_iff_inj_on (keys.of_map _)).2 fun g member g' member' same => ?_
    have key := request_key_injective (ranged.mem_iff.1 member) (ranged.mem_iff.1 member') same
    exact List.inj_on_of_nodup_map keys member member' key

def mixed : List Reservation :=
  [⟨1, sampleTenant, "a:b", "SKU1", "W1", 2, .active, 0⟩,
    ⟨2, sampleTenant, "a", "SKU1", "W1", 3, .active, 0⟩,
    ⟨3, sampleTenant, "a:b", "SKU2", "W1", 4, .active, 0⟩]

theorem sweep_partitions_mixed :
    ((groupByOrder mixed).entries.reverse.map fun g => g.2.map (·.id)) = [[2], [1, 3]] ∧
    (((groupByOrder mixed).entries.reverse.map request).map (·.idempotencyKey)).Nodup :=
  ⟨by decide +kernel, (sweep_partitions mixed (groupByOrder mixed).entries.reverse
    (List.reverse_perm _)).2.2.2.2⟩

end Taper.SweepGroups
