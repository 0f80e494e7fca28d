import Swat4Stats.ServerQuery

/-!
# Reassembly does not depend on the order of arrival

After any list of arrivals the collected dictionary has one entry for each packet that arrived,
and the count is known once the final packet has. So the collection is complete exactly when all
packets are there, and the sort puts them in their order.
-/

namespace Swat4Stats

set_option autoImplicit false

namespace ServerStatusTask

def payloadOf (pairs : List (Text × Text)) : Text :=
  pairs.flatMap fun pair => '\\' :: pair.1 ++ '\\' :: pair.2

/-- Packet `i` of `n`: its pairs have the order under `queryid`, and one of them is named `final`
if it is the last packet. -/
structure IsStatusPacket (n i : ℕ) (packet : Packet) : Prop where
  pairs : ∃ pairs, decodeResponse packet = payloadOf pairs ∧
    (∀ pair ∈ pairs, '\\' ∉ pair.1 ∧ '\\' ∉ pair.2) ∧
    (queryid, Nat.toDigits 10 i) ∈ pairs ∧
    (∀ pair ∈ pairs, pair.1 = queryid → pair.2 = Nat.toDigits 10 i) ∧
    ((∃ pair ∈ pairs, pair.1 = final) ↔ i = n) ∧
    ∀ pair ∈ pairs, pair.1 ≠ statusresponse

theorem payloadOf_eq_flatMap (pairs : List (Text × Text)) :
    payloadOf pairs =
      (pairs.flatMap fun pair => [pair.1, pair.2]).flatMap fun part => '\\' :: part := by
  rw [payloadOf, List.flatMap_assoc]
  simp

theorem parseStatusPayload_flatMap {parts : List Text} (hparts : ∀ part ∈ parts, '\\' ∉ part) :
    parseStatusPayload (parts.flatMap fun part => '\\' :: part) = pairUp parts := by
  have hsplit : Text.split ['\\'] (Text.join ['\\'] ([] :: parts)) = [] :: parts := by
    apply Text.split_join (by simp)
    intro part hpart
    obtain rfl | hpart := List.mem_cons.mp hpart
    · simp
    · exact hparts part hpart
  rw [parseStatusPayload, Text.flatMap_cons_eq_join, hsplit, List.drop_succ_cons, List.drop_zero]

theorem pairUp_flatMap (pairs : List (Text × Text)) :
    pairUp (pairs.flatMap fun pair => [pair.1, pair.2]) = pairs := by
  induction pairs with
  | nil => rfl
  | cons pair pairs ih => simp [pairUp, ih]

theorem parseStatusPayload_payloadOf {pairs : List (Text × Text)}
    (hpairs : ∀ pair ∈ pairs, '\\' ∉ pair.1 ∧ '\\' ∉ pair.2) :
    parseStatusPayload (payloadOf pairs) = pairs := by
  rw [payloadOf_eq_flatMap, parseStatusPayload_flatMap, pairUp_flatMap]
  intro part hpart
  obtain ⟨pair, hpair, hpart⟩ := List.mem_flatMap.mp hpart
  obtain ⟨hkey, hvalue⟩ := hpairs pair hpair
  obtain rfl | hpart := List.mem_cons.mp hpart
  · exact hkey
  · obtain rfl : part = pair.2 := by simpa using hpart
    exact hvalue

theorem scanParam_eq {pair : Text × Text} {i : ℕ} {scan : PacketScan}
    (hscan : scan.order = none ∨ scan.order = some (i : ℤ))
    (hquery : pair.1 = queryid → pair.2 = Nat.toDigits 10 i) (hstatus : pair.1 ≠ statusresponse) :
    scanParam scan pair =
      ⟨if pair.1 = queryid then some (i : ℤ) else scan.order,
        scan.isFinal || decide (pair.1 = final)⟩ := by
  have hqf : queryid ≠ final := by decide
  have hqs : queryid ≠ statusresponse := by decide
  obtain hq | hq := Decidable.em (pair.1 = queryid)
  · obtain hnone | hsome := hscan
    · simp [scanParam, hnone, hq, hquery hq, Text.parseInt_toDigits, hqs, hqf]
    · simp [scanParam, ← hsome, hq, hqf]
      simp [hsome]
  · obtain hf | hf := Decidable.em (pair.1 = final)
    · simp [scanParam, hf, hqf.symm, hf ▸ hstatus]
    · simp [scanParam, hq, hf, hstatus]

/-- The order is the first `queryid`; a later pair leaves it alone. -/
theorem foldl_scanParam {pairs : List (Text × Text)} {i : ℕ} {scan : PacketScan}
    (hscan : scan.order = none ∨ scan.order = some (i : ℤ))
    (hquery : ∀ pair ∈ pairs, pair.1 = queryid → pair.2 = Nat.toDigits 10 i)
    (hstatus : ∀ pair ∈ pairs, pair.1 ≠ statusresponse) :
    pairs.foldl scanParam scan =
      ⟨if pairs.any (fun pair => pair.1 = queryid) then some (i : ℤ) else scan.order,
        scan.isFinal || pairs.any fun pair => pair.1 = final⟩ := by
  induction pairs generalizing scan with
  | nil => simp
  | cons pair pairs ih =>
    have hstep := scanParam_eq hscan (hquery pair (by simp)) (hstatus pair (by simp))
    have hnext : (scanParam scan pair).order = none ∨
        (scanParam scan pair).order = some (i : ℤ) := by
      rw [hstep]
      obtain hq | hq := Decidable.em (pair.1 = queryid)
      · simp [hq]
      · simpa [hq] using hscan
    rw [List.foldl_cons, ih hnext (fun p hp => hquery p (by simp [hp]))
      (fun p hp => hstatus p (by simp [hp])), hstep]
    obtain hq | hq := Decidable.em (pair.1 = queryid)
    · simp [hq, Bool.or_assoc]
    · simp only [if_neg hq, List.any_cons, decide_eq_false hq, Bool.false_or, Bool.or_assoc]

theorem scanPacket_eq {n i : ℕ} {packet : Packet} (h : IsStatusPacket n i packet) :
    scanPacket (decodeResponse packet) = ⟨some (i : ℤ), decide (i = n)⟩ := by
  obtain ⟨pairs, hdata, hsep, hmem, hquery, hfinal, hstatus⟩ := h.pairs
  have hany : pairs.any (fun pair => pair.1 = queryid) = true := by
    simpa using ⟨_, hmem⟩
  have hanyFinal : pairs.any (fun pair => pair.1 = final) = decide (i = n) := by
    rw [Bool.eq_iff_iff, decide_eq_true_iff, ← hfinal]
    simp
  rw [scanPacket, hdata, parseStatusPayload_payloadOf hsep,
    foldl_scanParam (.inl rfl) hquery hstatus, hany, hanyFinal]
  simp

theorem normalizeStatusPacket_eq {n i : ℕ} {packet : Packet} (h : IsStatusPacket n i packet) :
    normalizeStatusPacket (decodeResponse packet) = decodeResponse packet := by
  obtain ⟨pairs, hdata, hsep, _, _, _, hstatus⟩ := h.pairs
  have hresults : statusresponsePattern.results { rest := decodeResponse packet } = [] := by
    apply Regex.results_seq_of_nil
    by_contra hne
    obtain ⟨rest, hrest⟩ := Regex.prefix_of_results_text hne
    cases pairs with
    | nil =>
      rw [hdata] at hrest
      cases hrest
    | cons pair pairs =>
      obtain ⟨key, value⟩ := pair
      have hkey := (hsep (key, value) (by simp)).1
      have hkeySplit : Text.splitFirst '\\' (key ++ '\\' :: (value ++ payloadOf pairs)) =
          (key, some (value ++ payloadOf pairs)) := Text.splitFirst_append hkey _
      have hstart : statusresponse ++ '\\' :: rest = key ++ '\\' :: (value ++ payloadOf pairs) := by
        have hcons : '\\' :: (statusresponse ++ '\\' :: rest) =
            '\\' :: (key ++ '\\' :: (value ++ payloadOf pairs)) := by
          rw [hdata] at hrest
          simpa [payloadOf] using hrest
        exact (List.cons.inj hcons).2
      have hplain : '\\' ∉ statusresponse := by decide
      rw [← hstart, Text.splitFirst_append hplain] at hkeySplit
      exact hstatus (key, value) (by simp) (Prod.mk.inj hkeySplit).1.symm
  rw [normalizeStatusPacket, Regex.matchAt, hresults]
  rfl

section Reassembly

variable {n : ℕ} {packet : ℕ → Packet}

def entry (packet : ℕ → Packet) (i : ℕ) : ℤ × Text := ((i : ℤ), decodeResponse (packet i))

/-- One entry for each packet that arrived, and the count once the last one did. -/
structure Holds (n : ℕ) (packet : ℕ → Packet) (arrived : List ℕ) (collected : Collected) :
    Prop where
  ordered : ∃ ks : List ℕ, ks.Nodup ∧ (∀ i, i ∈ ks ↔ i ∈ arrived) ∧
    collected.ordered = ks.map (entry packet)
  count : collected.count = if n ∈ arrived then some (n : ℤ) else none

theorem get?_map_entry {ks : List ℕ} {i : ℕ} (hi : i ∈ ks) :
    OrderedDict.get? (ks.map (entry packet)) (i : ℤ) = some (decodeResponse (packet i)) := by
  induction ks with
  | nil => cases hi
  | cons k ks ih =>
    obtain rfl | hki := eq_or_ne k i
    · simp [entry]
    · have hi : i ∈ ks := by simpa [hki.symm] using hi
      have hcast : (k : ℤ) ≠ (i : ℤ) := by exact_mod_cast hki
      simpa [entry, OrderedDict.get?, hcast] using ih hi

theorem holds_collectPacket {arrived : List ℕ} {collected : Collected}
    (hcollected : Holds n packet arrived collected) {i : ℕ} (hi : IsStatusPacket n i (packet i)) :
    ∃ collected', collectPacket collected (decodeResponse (packet i)) = .ok collected' ∧
      Holds n packet (arrived ++ [i]) collected' := by
  obtain ⟨⟨ks, hnodup, hmem, hordered⟩, hcount⟩ := hcollected
  refine ⟨⟨if decide (i = n) then some (i : ℤ) else collected.count,
    OrderedDict.set collected.ordered i (decodeResponse (packet i))⟩, ?_, ?_, ?_⟩
  · rw [collectPacket, scanPacket_eq hi]
  · obtain hik | hik := Decidable.em (i ∈ ks)
    · refine ⟨ks, hnodup, ?_, ?_⟩
      · intro j
        rw [hmem j, List.mem_append, List.mem_singleton]
        constructor
        · exact .inl
        · rintro (hj | rfl)
          · exact hj
          · exact (hmem j).mp hik
      · rw [hordered]
        exact OrderedDict.set_eq_self (get?_map_entry hik)
    · refine ⟨ks ++ [i], ?_, ?_, ?_⟩
      · rw [List.nodup_append]
        refine ⟨hnodup, by simp, ?_⟩
        intro j hj k hk hjk
        obtain rfl : k = i := by simpa using hk
        exact hik (hjk ▸ hj)
      · intro j
        simp [hmem j]
      · have hkey : (i : ℤ) ∉ OrderedDict.keys (ks.map (entry packet)) := by
          intro hkey
          obtain ⟨_, hentry, hki⟩ := List.mem_map.mp hkey
          obtain ⟨k, hk, rfl⟩ := List.mem_map.mp hentry
          have hki : k = i := by
            simp only [entry] at hki
            exact_mod_cast hki
          exact hik (hki ▸ hk)
        rw [hordered, OrderedDict.set_of_not_mem hkey, List.map_append]
        rfl
  · obtain rfl | hin := eq_or_ne i n
    · simp
    · have hni : n ≠ i := hin.symm
      simp [hin, hni, hcount]

theorem holds_foldlM {arrived : List ℕ}
    (harrived : ∀ i ∈ arrived, IsStatusPacket n i (packet i)) :
    ∃ collected, (arrived.map fun i => decodeResponse (packet i)).foldlM collectPacket {} =
      .ok collected ∧ Holds n packet arrived collected := by
  induction arrived using List.reverseRecOn with
  | nil => exact ⟨{}, rfl, ⟨[], by simp⟩, by simp⟩
  | append_singleton arrived i ih =>
    obtain ⟨collected, hrun, hholds⟩ := ih fun j hj => harrived j (by simp [hj])
    obtain ⟨collected', hstep, hholds'⟩ := holds_collectPacket hholds (harrived i (by simp))
    refine ⟨collected', ?_, hholds'⟩
    rw [List.map_append, List.foldlM_append, hrun]
    simp only [List.map_cons, List.map_nil, List.foldlM_cons, List.foldlM_nil, bind_pure]
    exact hstep

theorem perm_range' {ks : List ℕ} (hnodup : ks.Nodup) (hks : ∀ i, i ∈ ks ↔ 1 ≤ i ∧ i ≤ n) :
    ks.Perm (List.range' 1 n) := by
  rw [List.perm_ext_iff_of_nodup hnodup List.nodup_range']
  intro i
  rw [hks i, List.mem_range'_1]
  omega

/-- Sorting by order restores the packets, whatever order they arrived in. -/
theorem sortedPackets_eq {ks : List ℕ} (hperm : ks.Perm (List.range' 1 n)) :
    sortedPackets (ks.map (entry packet)) =
      (List.range' 1 n).map fun i => decodeResponse (packet i) := by
  have hmap : (ks.insertionSort (· ≤ ·)).map (entry packet) =
      (ks.map (entry packet)).insertionSort fun a b => a.1 ≤ b.1 := by
    apply List.map_insertionSort
    intro i _ j _
    simp [entry]
  have hsorted : ks.insertionSort (· ≤ ·) = List.range' 1 n :=
    List.Perm.eq_of_pairwise' (List.pairwise_insertionSort (· ≤ ·) ks) List.pairwise_le_range'
      ((List.perm_insertionSort _ _).trans hperm)
  rw [sortedPackets, ← hmap, hsorted, List.map_map]
  rfl

variable {arrived : List ℕ} (harrived : ∀ i ∈ arrived, 1 ≤ i ∧ i ≤ n)
  (hpackets : ∀ i, 1 ≤ i → i ≤ n → IsStatusPacket n i (packet i))

include harrived hpackets in
theorem collectStatusPayload_complete (hn : 1 ≤ n) (hall : ∀ i, 1 ≤ i → i ≤ n → i ∈ arrived) :
    collectStatusPayload (arrived.map packet) =
      .ok ((List.range' 1 n).flatMap fun i => decodeResponse (packet i)) := by
  obtain ⟨collected, hrun, ⟨ks, hnodup, hmem, hordered⟩, hcount⟩ :=
    holds_foldlM fun i hi => hpackets i (harrived i hi).1 (harrived i hi).2
  have hperm : ks.Perm (List.range' 1 n) := by
    apply perm_range' hnodup
    intro i
    rw [hmem i]
    constructor
    · exact harrived i
    · rintro ⟨h1, hin⟩
      exact hall i h1 hin
  have hlength : collected.ordered.length = n := by
    rw [hordered, List.length_map, hperm.length_eq, List.length_range']
  have hnormalize : ((List.range' 1 n).map fun i => decodeResponse (packet i)).map
      normalizeStatusPacket = (List.range' 1 n).map fun i => decodeResponse (packet i) := by
    rw [List.map_map]
    apply List.map_congr_left
    intro i hi
    have hi := List.mem_range'_1.mp hi
    exact normalizeStatusPacket_eq (hpackets i (by omega) (by omega))
  have hn0 : (n : ℤ) ≠ 0 := by omega
  rw [collectStatusPayload, List.map_map]
  change ((arrived.map fun i => decodeResponse (packet i)).foldlM collectPacket {} >>= _) = _
  rw [hrun]
  simp only [bind, Except.bind, hcount, if_pos (hall n hn le_rfl), hlength, hn0, ne_eq,
    not_true_eq_false, or_self, if_false]
  rw [hordered, sortedPackets_eq hperm, hnormalize, List.flatMap]

include harrived hpackets in
theorem collectStatusPayload_incomplete {i : ℕ} (h1 : 1 ≤ i) (hin : i ≤ n) (hi : i ∉ arrived) :
    ∃ received count,
      collectStatusPayload (arrived.map packet) = .error (.incomplete received count) := by
  obtain ⟨collected, hrun, ⟨ks, hnodup, hmem, hordered⟩, hcount⟩ :=
    holds_foldlM fun i hi => hpackets i (harrived i hi).1 (harrived i hi).2
  have hlength : collected.ordered.length < n := by
    have hsub : (i :: ks).Subperm (List.range' 1 n) := by
      apply List.subperm_of_subset
      · exact List.nodup_cons.mpr ⟨fun hik => hi ((hmem i).mp hik), hnodup⟩
      · intro j hj
        rw [List.mem_range'_1]
        obtain rfl | hj := List.mem_cons.mp hj
        · omega
        · have hj := harrived j ((hmem j).mp hj)
          omega
    have hle := hsub.length_le
    rw [List.length_cons, List.length_range'] at hle
    rw [hordered, List.length_map]
    omega
  rw [collectStatusPayload, List.map_map]
  change ∃ received count,
    ((arrived.map fun i => decodeResponse (packet i)).foldlM collectPacket {} >>= _) = _
  rw [hrun]
  obtain hfinal | hfinal := Decidable.em (n ∈ arrived)
  · have hne : (n : ℤ) ≠ (collected.ordered.length : ℤ) := by omega
    refine ⟨collected.ordered.length, some (n : ℤ), ?_⟩
    simp only [bind, Except.bind, hcount, if_pos hfinal]
    rw [if_pos (.inr hne)]
  · refine ⟨collected.ordered.length, none, ?_⟩
    simp only [bind, Except.bind, hcount, if_neg hfinal]

include hpackets in
/-- As long as a packet is missing, each arrival leaves the loop waiting. -/
theorem receive_append {received rest : List ℕ} (arrivals : List Packet)
    (hvalid : ∀ i ∈ received ++ rest, 1 ≤ i ∧ i ≤ n) {i : ℕ} (h1 : 1 ≤ i) (hin : i ≤ n)
    (hi : i ∉ received ++ rest) :
    receive (received.map packet) (rest.map packet ++ arrivals) =
      receive ((received ++ rest).map packet) arrivals := by
  induction rest generalizing received with
  | nil => simp
  | cons a rest ih =>
    have hassoc : received ++ a :: rest = received ++ [a] ++ rest := by simp
    rw [hassoc] at hvalid hi ⊢
    have hinitial : i ∉ received ++ [a] := fun h => hi (List.mem_append_left _ h)
    obtain ⟨count, expected, hcollect⟩ := collectStatusPayload_incomplete
      (fun j hj => hvalid j (List.mem_append_left _ hj)) hpackets h1 hin hinitial
    have hmap : (received ++ [a]).map packet = received.map packet ++ [packet a] := by simp
    rw [hmap] at hcollect
    rw [List.map_cons, List.cons_append, receive, hcollect]
    simp only
    rw [← hmap]
    exact ih hvalid hi

include hpackets in
theorem receive_complete (hn : 1 ≤ n) {received : List ℕ} {a : ℕ} (arrivals : List Packet)
    (hvalid : ∀ i ∈ received ++ [a], 1 ≤ i ∧ i ≤ n)
    (hall : ∀ i, 1 ≤ i → i ≤ n → i ∈ received ++ [a]) :
    receive (received.map packet) (packet a :: arrivals) =
      .payload ((received ++ [a]).map packet)
        ((List.range' 1 n).flatMap fun i => decodeResponse (packet i)) := by
  have hmap : (received ++ [a]).map packet = received.map packet ++ [packet a] := by simp
  have hcollect := collectStatusPayload_complete hvalid hpackets hn hall
  rw [hmap] at hcollect ⊢
  rw [receive, hcollect]

include hpackets in
theorem receive_not_raised (hn : 1 ≤ n) {received rest : List ℕ}
    (hvalid : ∀ i ∈ received ++ rest, 1 ≤ i ∧ i ≤ n) (e : ResponseError) :
    receive (received.map packet) (rest.map packet) ≠ .raised e := by
  induction rest generalizing received with
  | nil => simp [receive]
  | cons a rest ih =>
    have hassoc : received ++ a :: rest = received ++ [a] ++ rest := by simp
    rw [hassoc] at hvalid
    have hinitial : ∀ i ∈ received ++ [a], 1 ≤ i ∧ i ≤ n := fun i hi =>
      hvalid i (List.mem_append_left _ hi)
    obtain hall | hmissing := Decidable.em (∀ i ∈ List.range' 1 n, i ∈ received ++ [a])
    · rw [List.map_cons, receive_complete hpackets hn _ hinitial]
      · simp
      · intro i h1 hin
        exact hall i (List.mem_range'_1.mpr (by omega))
    · push Not at hmissing
      obtain ⟨i, hi, hnot⟩ := hmissing
      have hi := List.mem_range'_1.mp hi
      have hstep := receive_append hpackets (rest.map packet) hinitial (by omega : 1 ≤ i)
        (by omega) hnot
      rw [List.map_cons, List.map_nil, List.singleton_append] at hstep
      rw [List.map_cons, hstep]
      exact ih hvalid

include hpackets in
/-- Whatever the order and the duplicates, the loop waits until the last packet that was missing
arrives, never takes the response for malformed, and yields the packets in their order. -/
theorem receive_any_order (hn : 1 ≤ n) {arrivals : List ℕ}
    (harrivals : ∀ i ∈ arrivals, 1 ≤ i ∧ i ≤ n) :
    ((∃ i, 1 ≤ i ∧ i ≤ n ∧ i ∉ arrivals) →
      receive [] (arrivals.map packet) = .waiting (arrivals.map packet)) ∧
    (∀ before a after, arrivals = before ++ a :: after →
      (∃ i, 1 ≤ i ∧ i ≤ n ∧ i ∉ before) → (∀ i, 1 ≤ i → i ≤ n → i ∈ before ++ [a]) →
      receive [] (arrivals.map packet) =
        .payload ((before ++ [a]).map packet)
          ((List.range' 1 n).flatMap fun i => decodeResponse (packet i))) ∧
    ∀ e, receive [] (arrivals.map packet) ≠ .raised e := by
  refine ⟨?_, ?_, @receive_not_raised n packet hpackets hn [] arrivals (by simpa using harrivals)⟩
  · rintro ⟨i, h1, hin, hi⟩
    have hwait := @receive_append n packet hpackets [] arrivals [] (by simpa using harrivals) i h1
      hin (by simpa using hi)
    simpa [receive] using hwait
  · rintro before a after rfl ⟨i, h1, hin, hi⟩ hall
    have hbefore : ∀ j ∈ before, 1 ≤ j ∧ j ≤ n := fun j hj => harrivals j (by simp [hj])
    have hwait := @receive_append n packet hpackets [] before ((a :: after).map packet)
      (by simpa using hbefore) i h1 hin (by simpa using hi)
    rw [List.map_append]
    rw [List.map_nil, List.nil_append] at hwait
    rw [hwait, List.map_cons]
    apply receive_complete hpackets hn _ _ hall
    intro j hj
    obtain hj | hj := List.mem_append.mp hj
    · exact hbefore j hj
    · obtain rfl : j = a := by simpa using hj
      exact harrivals j (by simp)

end Reassembly

def smallResponse (i : ℕ) : Packet :=
  (if i = 1 then "\\hostname\\SEF\\queryid\\1" else "\\round\\5\\queryid\\2\\final\\").toList.map
    fun c => UInt8.ofNat c.toNat

theorem isStatusPacket_smallResponse (i : ℕ) (h1 : 1 ≤ i) (hin : i ≤ 2) :
    IsStatusPacket 2 i (smallResponse i) := by
  obtain rfl | rfl : i = 1 ∨ i = 2 := by omega
  · exact ⟨[("hostname".toList, "SEF".toList), (queryid, ['1'])], by decide +kernel⟩
  · exact ⟨[("round".toList, ['5']), (queryid, ['2']), (final, [])], by decide +kernel⟩

theorem receive_smallResponse :
    receive [] ([2, 2, 1, 2].map smallResponse) =
      .payload ([2, 2, 1].map smallResponse)
        "\\hostname\\SEF\\queryid\\1\\round\\5\\queryid\\2\\final\\".toList := by
  have hreceive := (@receive_any_order 2 smallResponse isStatusPacket_smallResponse (by decide)
    [2, 2, 1, 2] (by decide)).2.1 [2, 2] 1 [2] rfl ⟨1, by decide⟩
  rw [hreceive]
  · decide +kernel
  · intro i h1 hin
    obtain rfl | rfl : i = 1 ∨ i = 2 := by omega
    · decide
    · decide

end ServerStatusTask

end Swat4Stats
