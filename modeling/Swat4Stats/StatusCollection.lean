import Swat4Stats.StatusReassembly
import Mathlib.Data.List.Dedup

/-!
# What a collection of packets depends on

Any packets, from whoever sent them: the collection is decided by the order that each packet gives
itself and by the last packet that calls itself final. It counts the distinct orders, but does not
ask which orders they are.
-/

namespace Swat4Stats

set_option autoImplicit false

namespace ServerStatusTask

def orderOf (packet : Packet) : Option ℤ := (scanPacket (decodeResponse packet)).order

def isFinalPacket (packet : Packet) : Bool := (scanPacket (decodeResponse packet)).isFinal

/-- The order of the last packet that is final. -/
def finalOrder (packets : List Packet) : Option ℤ :=
  (packets.reverse.find? isFinalPacket).bind orderOf

def latest (packets : List Packet) (order : ℤ) : Option Packet :=
  packets.reverse.find? fun packet => orderOf packet = some order

def distinctOrders (packets : List Packet) : List ℤ := (packets.filterMap orderOf).dedup

def contentOf (packets : List Packet) (order : ℤ) : Text :=
  normalizeStatusPacket (decodeResponse ((latest packets order).getD []))

/-- The contents in the order of the packets. -/
def assembled (packets : List Packet) : Text :=
  ((distinctOrders packets).insertionSort (· ≤ ·)).flatMap (contentOf packets)

def Ordered (packets : List Packet) : Prop := ∀ packet ∈ packets, orderOf packet ≠ none

variable {packets : List Packet} {packet : Packet} {collected : Collected} {order : ℤ}

theorem mem_distinctOrders :
    order ∈ distinctOrders packets ↔ ∃ packet ∈ packets, orderOf packet = some order := by
  rw [distinctOrders, List.mem_dedup, List.mem_filterMap]

theorem latest_eq_none_iff : latest packets order = none ↔ order ∉ distinctOrders packets := by
  rw [latest, List.find?_eq_none, mem_distinctOrders]
  simp

theorem latest_append_singleton (packets : List Packet) (packet : Packet) (order : ℤ) :
    latest (packets ++ [packet]) order =
      if orderOf packet = some order then some packet else latest packets order := by
  simp only [latest, List.reverse_append, List.reverse_singleton, List.singleton_append,
    List.find?_cons]
  split <;> simp_all

theorem finalOrder_append_singleton (packets : List Packet) (packet : Packet) :
    finalOrder (packets ++ [packet]) =
      if isFinalPacket packet = true then orderOf packet else finalOrder packets := by
  simp only [finalOrder, List.reverse_append, List.reverse_singleton, List.singleton_append,
    List.find?_cons]
  split <;> simp_all

theorem latest_of_unique (hmem : packet ∈ packets) (horder : orderOf packet = some order)
    (hunique : ∀ other ∈ packets, orderOf other = some order → other = packet) :
    latest packets order = some packet := by
  cases hlatest : latest packets order with
  | none =>
    exact absurd (mem_distinctOrders.mpr ⟨packet, hmem, horder⟩) (latest_eq_none_iff.mp hlatest)
  | some other =>
    have hother := List.find?_some hlatest
    rw [decide_eq_true_eq] at hother
    rw [hunique other (List.mem_reverse.mp (List.mem_of_find?_eq_some hlatest)) hother]

theorem isFinal_of_finalOrder (h : finalOrder packets = some order) :
    ∃ packet ∈ packets, isFinalPacket packet = true ∧ orderOf packet = some order := by
  obtain ⟨packet, hfind, horder⟩ := Option.bind_eq_some_iff.mp h
  exact ⟨packet, List.mem_reverse.mp (List.mem_of_find?_eq_some hfind), List.find?_some hfind,
    horder⟩

theorem finalOrder_of_unique (hmem : packet ∈ packets) (hfinal : isFinalPacket packet = true)
    (hunique : ∀ other ∈ packets, isFinalPacket other = true → orderOf other = some order) :
    finalOrder packets = some order := by
  cases hfind : packets.reverse.find? isFinalPacket with
  | none =>
    exact absurd hfinal (List.find?_eq_none.mp hfind packet (List.mem_reverse.mpr hmem))
  | some other =>
    rw [finalOrder, hfind]
    exact hunique other (List.mem_reverse.mp (List.mem_of_find?_eq_some hfind))
      (List.find?_some hfind)

/-- What the loop has collected. -/
structure Collects (packets : List Packet) (collected : Collected) : Prop where
  nodup : (OrderedDict.keys collected.ordered).Nodup
  ordered : ∀ order, OrderedDict.get? collected.ordered order =
    (latest packets order).map decodeResponse
  count : collected.count = finalOrder packets

theorem collects_collectPacket (hcollected : Collects packets collected)
    (horder : orderOf packet = some order) :
    ∃ collected', collectPacket collected (decodeResponse packet) = .ok collected' ∧
      Collects (packets ++ [packet]) collected' := by
  have hscan : (scanPacket (decodeResponse packet)).order = some order := horder
  refine ⟨_, by rw [collectPacket]; simp only [hscan]; rfl, ?_⟩
  constructor
  · exact OrderedDict.nodup_keys_set hcollected.nodup
  · intro other
    rw [OrderedDict.get?_set, latest_append_singleton, horder, hcollected.ordered]
    obtain rfl | hne := eq_or_ne order other
    · simp
    · simp [hne]
  · rw [finalOrder_append_singleton, horder, hcollected.count]
    rfl

theorem collects_foldlM (h : Ordered packets) :
    ∃ collected, (packets.map decodeResponse).foldlM collectPacket {} = .ok collected ∧
      Collects packets collected := by
  induction packets using List.reverseRecOn with
  | nil => exact ⟨{}, rfl, by simp [OrderedDict.keys], fun _ => rfl, rfl⟩
  | append_singleton packets packet ih =>
    obtain ⟨collected, hrun, hcollects⟩ := ih fun other hother => h other (by simp [hother])
    obtain ⟨order, horder⟩ := Option.ne_none_iff_exists'.mp (h packet (by simp))
    obtain ⟨collected', hstep, hcollects'⟩ := collects_collectPacket hcollects horder
    refine ⟨collected', ?_, hcollects'⟩
    rw [List.map_append, List.foldlM_append, hrun]
    simp only [List.map_cons, List.map_nil, List.foldlM_cons, List.foldlM_nil, bind_pure]
    exact hstep

theorem foldlM_of_not_ordered (h : ¬ Ordered packets) (collected : Collected) :
    (packets.map decodeResponse).foldlM collectPacket collected =
      .error (.malformed "no order specified") := by
  induction packets generalizing collected with
  | nil => exact absurd (fun _ hmem => by cases hmem) h
  | cons packet packets ih =>
    rw [List.map_cons, List.foldlM_cons]
    cases horder : orderOf packet with
    | none =>
      have hscan : (scanPacket (decodeResponse packet)).order = none := horder
      rw [collectPacket]
      simp only [hscan]
      rfl
    | some order =>
      have hscan : (scanPacket (decodeResponse packet)).order = some order := horder
      have hrest : ¬ Ordered packets := by
        intro hrest
        apply h
        intro other hother
        obtain rfl | hother := List.mem_cons.mp hother
        · simp [horder]
        · exact hrest other hother
      rw [collectPacket]
      simp only [hscan]
      exact ih hrest _

theorem mem_keys_of_collects (h : Collects packets collected) :
    order ∈ OrderedDict.keys collected.ordered ↔ order ∈ distinctOrders packets := by
  rw [← not_iff_not, ← OrderedDict.get?_eq_none_iff, h.ordered, Option.map_eq_none_iff,
    latest_eq_none_iff]

theorem perm_keys_of_collects (h : Collects packets collected) :
    (OrderedDict.keys collected.ordered).Perm (distinctOrders packets) :=
  (List.perm_ext_iff_of_nodup h.nodup (List.nodup_dedup _)).mpr fun _ => mem_keys_of_collects h

theorem sortedPackets_eq_map {ordered : OrderedDict ℤ Text}
    (hnodup : (OrderedDict.keys ordered).Nodup) :
    sortedPackets ordered = ((OrderedDict.keys ordered).insertionSort (· ≤ ·)).map fun order =>
      (OrderedDict.get? ordered order).getD [] := by
  have hkeys : (ordered.insertionSort fun a b => a.1 ≤ b.1).map Prod.fst =
      (OrderedDict.keys ordered).insertionSort (· ≤ ·) := by
    apply List.map_insertionSort
    intro a _ b _
    rfl
  rw [← hkeys, List.map_map, sortedPackets]
  apply List.map_congr_left
  rintro ⟨order, content⟩ hentry
  have hget : OrderedDict.get? ordered order = some content :=
    OrderedDict.get?_of_mem hnodup ((List.mem_insertionSort _).mp hentry)
  simp [hget]

theorem flatten_sortedPackets (h : Collects packets collected) :
    ((sortedPackets collected.ordered).map normalizeStatusPacket).flatten = assembled packets := by
  have hkeys : (OrderedDict.keys collected.ordered).insertionSort (· ≤ ·) =
      (distinctOrders packets).insertionSort (· ≤ ·) := by
    apply List.Perm.eq_of_pairwise' (List.pairwise_insertionSort (· ≤ ·) _)
      (List.pairwise_insertionSort (· ≤ ·) _)
    exact (List.perm_insertionSort _ _).trans
      ((perm_keys_of_collects h).trans (List.perm_insertionSort _ _).symm)
  rw [sortedPackets_eq_map h.nodup, hkeys, List.map_map, assembled, List.flatMap_def]
  congr 1
  apply List.map_congr_left
  intro order horder
  have hmem : order ∈ distinctOrders packets := (List.mem_insertionSort _).mp horder
  simp only [Function.comp_apply, h.ordered, contentOf]
  cases hlatest : latest packets order with
  | none => exact absurd hmem (latest_eq_none_iff.mp hlatest)
  | some packet => rfl

theorem collectStatusPayload_of_ordered (h : Ordered packets) :
    collectStatusPayload packets = match finalOrder packets with
      | none => .error (.incomplete (distinctOrders packets).length none)
      | some count =>
        if count = 0 ∨ count ≠ (distinctOrders packets).length then
          .error (.incomplete (distinctOrders packets).length (some count))
        else
          .ok (assembled packets) := by
  obtain ⟨collected, hrun, hcollects⟩ := collects_foldlM h
  have hlength : collected.ordered.length = (distinctOrders packets).length := by
    rw [← (perm_keys_of_collects hcollects).length_eq, OrderedDict.keys, List.length_map]
  rw [collectStatusPayload]
  change ((packets.map decodeResponse).foldlM collectPacket {} >>= _) = _
  have hcount : collected.count = finalOrder packets := hcollects.count
  rw [hrun, ← hcount, ← hlength, ← flatten_sortedPackets hcollects]
  rfl

theorem collectStatusPayload_of_not_ordered (h : ¬ Ordered packets) :
    collectStatusPayload packets = .error (.malformed "no order specified") := by
  rw [collectStatusPayload, foldlM_of_not_ordered h]
  rfl

theorem collectStatusPayload_eq_ok_iff {payload : Text} :
    collectStatusPayload packets = .ok payload ↔
      Ordered packets ∧ (distinctOrders packets).length ≠ 0 ∧
        finalOrder packets = some ((distinctOrders packets).length : ℤ) ∧
        payload = assembled packets := by
  obtain h | h := Classical.em (Ordered packets)
  · rw [collectStatusPayload_of_ordered h]
    cases hfinal : finalOrder packets with
    | none => simp
    | some count =>
      simp only
      split
      · rename_i hcount
        constructor
        · intro herror
          cases herror
        · rintro ⟨_, hpos, heq, _⟩
          cases heq
          omega
      · rename_i hcount
        rw [not_or, not_not] at hcount
        obtain ⟨hpos, rfl⟩ := hcount
        constructor
        · intro hok
          cases hok
          exact ⟨h, by omega, rfl, rfl⟩
        · rintro ⟨_, _, _, rfl⟩
          rfl
  · rw [collectStatusPayload_of_not_ordered h]
    simp [h]

theorem collectStatusPayload_incomplete_of_count (h : Ordered packets)
    (hcount : finalOrder packets ≠ some ((distinctOrders packets).length : ℤ)) :
    ∃ received count,
      collectStatusPayload packets = .error (.incomplete received count) := by
  rw [collectStatusPayload_of_ordered h]
  cases hfinal : finalOrder packets with
  | none => exact ⟨_, _, rfl⟩
  | some count =>
    have hne : count ≠ (distinctOrders packets).length := by
      rintro rfl
      exact hcount hfinal
    simp only [if_pos (Or.inr hne : count = 0 ∨ count ≠ (distinctOrders packets).length)]
    exact ⟨_, _, rfl⟩

/-- The payload has the packets `1..n`, where `n` is the order of the final one. -/
def Reassembled (packets : List Packet) (payload : Text) : Prop :=
  ∃ n : ℕ, finalOrder packets = some (n : ℤ) ∧
    (∀ i : ℕ, 1 ≤ i → i ≤ n → ∃ packet ∈ packets, orderOf packet = some (i : ℤ)) ∧
    payload = (List.range' 1 n).flatMap fun i : ℕ => contentOf packets i

/-- As many orders as the final packet says, and none that a response of so many packets has not. -/
def WellNumbered (packets : List Packet) : Prop :=
  ∀ order ∈ distinctOrders packets, 1 ≤ order ∧ order ≤ (distinctOrders packets).length

theorem nodup_range_cast (n : ℕ) : ((List.range' 1 n).map fun i : ℕ => (i : ℤ)).Nodup :=
  List.Nodup.map (fun _ _ h => Int.ofNat_inj.mp h) List.nodup_range'

theorem wellNumbered_iff_perm :
    WellNumbered packets ↔ (distinctOrders packets).Perm
      ((List.range' 1 (distinctOrders packets).length).map fun i : ℕ => (i : ℤ)) := by
  constructor
  · intro hnumbered
    apply (List.subperm_of_subset (List.nodup_dedup _) ?_).perm_of_length_le
    · rw [List.length_map, List.length_range']
      exact le_rfl
    · intro order horder
      obtain ⟨hpos, hle⟩ := hnumbered order horder
      rw [List.mem_map]
      exact ⟨order.toNat, List.mem_range'_1.mpr (by omega), by omega⟩
  · intro hperm order horder
    obtain ⟨i, hi, rfl⟩ := List.mem_map.mp (hperm.mem_iff.mp horder)
    have hi := List.mem_range'_1.mp hi
    omega

theorem perm_of_all_orders
    (h : ∀ i : ℕ, 1 ≤ i → i ≤ (distinctOrders packets).length → (i : ℤ) ∈ distinctOrders packets) :
    (distinctOrders packets).Perm
      ((List.range' 1 (distinctOrders packets).length).map fun i : ℕ => (i : ℤ)) := by
  apply ((List.subperm_of_subset (nodup_range_cast _) ?_).perm_of_length_le ?_).symm
  · intro order horder
    obtain ⟨i, hi, rfl⟩ := List.mem_map.mp horder
    have hi := List.mem_range'_1.mp hi
    exact h i (by omega) (by omega)
  · simp

theorem assembled_of_wellNumbered (h : WellNumbered packets) :
    assembled packets =
      (List.range' 1 (distinctOrders packets).length).flatMap fun i : ℕ => contentOf packets i := by
  have hsorted : (distinctOrders packets).insertionSort (· ≤ ·) =
      (List.range' 1 (distinctOrders packets).length).map fun i : ℕ => (i : ℤ) := by
    apply List.Perm.eq_of_pairwise' (List.pairwise_insertionSort (· ≤ ·) _)
    · exact List.pairwise_le_range'.map _ fun _ _ hle => Int.ofNat_le.mpr hle
    · exact (List.perm_insertionSort _ _).trans (wellNumbered_iff_perm.mp h)
  rw [assembled, hsorted, List.flatMap_map]

/-- A payload lacks no packet if and only if the count is not reached with the wrong numbers. -/
theorem collectStatusPayload_reassembled_iff (packets : List Packet) :
    (∀ payload, collectStatusPayload packets = .ok payload → Reassembled packets payload) ↔
      (Ordered packets → finalOrder packets = some ((distinctOrders packets).length : ℤ) →
        WellNumbered packets) := by
  constructor
  · intro hreassembled hordered hfinal
    obtain hempty | hpos := Nat.eq_zero_or_pos (distinctOrders packets).length
    · intro order horder
      rw [List.length_eq_zero_iff.mp hempty] at horder
      cases horder
    · obtain ⟨n, hn, hall, _⟩ := hreassembled _
        (collectStatusPayload_eq_ok_iff.mpr ⟨hordered, hpos.ne', hfinal, rfl⟩)
      obtain rfl : n = (distinctOrders packets).length := by
        rw [hfinal] at hn
        exact_mod_cast (Option.some.inj hn).symm
      apply wellNumbered_iff_perm.mpr
      apply perm_of_all_orders
      intro i h1 hin
      exact mem_distinctOrders.mpr (hall i h1 hin)
  · intro hnumbered payload hpayload
    obtain ⟨hordered, _, hfinal, rfl⟩ := collectStatusPayload_eq_ok_iff.mp hpayload
    have hnumbered := hnumbered hordered hfinal
    refine ⟨_, hfinal, ?_, assembled_of_wellNumbered hnumbered⟩
    intro i h1 hin
    apply mem_distinctOrders.mp
    rw [(wellNumbered_iff_perm.mp hnumbered).mem_iff, List.mem_map]
    exact ⟨i, List.mem_range'_1.mpr (by omega), rfl⟩

def strangePackets : List Packet :=
  ["\\a\\b\\queryid\\5", "\\c\\d\\queryid\\2\\final\\"].map fun text =>
    text.toList.map fun c => UInt8.ofNat c.toNat

theorem strangePackets_incomplete :
    ¬ ∀ payload, collectStatusPayload strangePackets = .ok payload →
      Reassembled strangePackets payload := by
  intro hreassembled
  obtain ⟨n, hn, hall, _⟩ := hreassembled
    "\\c\\d\\queryid\\2\\final\\\\a\\b\\queryid\\5".toList (by decide +kernel)
  have hfinal : finalOrder strangePackets = some (2 : ℕ) := by decide +kernel
  obtain rfl : n = 2 := by
    rw [hfinal] at hn
    exact_mod_cast (Option.some.inj hn).symm
  have hfirst := hall 1 le_rfl (by decide)
  revert hfirst
  decide +kernel

end ServerStatusTask

end Swat4Stats
