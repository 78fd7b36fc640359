import Margo.Plumber.Buckets

/-!
# The resolved address

A resolution gives the address it was given, in its canonical form, or this address with the
name of one card of the bucket of the process. It leaves this address behind, and of what it
created itself only the names of the cards that were put into buckets, which nobody releases.
-/

namespace Margo.Plumber

open Lib Lib.Ledger
open Hg (CStr strstr)

variable {t : Topology} {p : Process} {r : Replies} {inAddress bucketPolicy nicPolicy : String}
  {n : Int} {interfaces : List Interface} {buckets : List Bucket} {files files' : Files}
  {w w' base : Ledger Object} {out : Resolution} {owned : List (Object × Nat)}

/-! ## The ways to end -/

/-- The objects before the buckets are set up: the canonical address and the topology. -/
def opened (w : Ledger Object) : Ledger Object :=
  ((w.create .block).2.create .topology).2

/-- What is done on every path after the buckets are set up. -/
def closed (address topology : Nat) (buckets : List Bucket) (w : Ledger Object) : Ledger Object :=
  (releaseBuckets address buckets w).release .topology topology

/-- The policies ask for a card. -/
structure Asks (inAddress bucketPolicy nicPolicy : String) : Prop where
  nicPolicy : nicPolicy ≠ "passthrough"
  bucketPolicy : bucketPolicy ≠ "passthrough"
  address : asksForNic (canonicalizeAddrString inAddress) = true

/-- The ways in which a resolution ends. -/
inductive Ends (t : Topology) (p : Process) (r : Replies)
    (inAddress bucketPolicy nicPolicy : String) (files : Files) (w : Ledger Object) :
    Resolution → Prop
  | unallocated (h : r.canonicalize = false) :
      Ends t p r inAddress bucketPolicy nicPolicy files w ⟨-1, none, files, w⟩
  | passed (h : ¬Asks inAddress bucketPolicy nicPolicy) :
      Ends t p r inAddress bucketPolicy nicPolicy files w
        ⟨0, some ⟨w.next, canonicalizeAddrString inAddress⟩, files, (w.create .block).2⟩
  | undivided {w' : Ledger Object} (hasks : Asks inAddress bucketPolicy nicPolicy)
      (hsetup : setupBuckets t r bucketPolicy (opened w) = .error w') :
      Ends t p r inAddress bucketPolicy nicPolicy files w
        ⟨0, some ⟨w.next, canonicalizeAddrString inAddress⟩, files,
          w'.release .topology (w.next + 1)⟩
  | unselected {n : Int} {array : Nat} {buckets : List Bucket} {w' : Ledger Object}
      {files' : Files} (hasks : Asks inAddress bucketPolicy nicPolicy)
      (hsetup : setupBuckets t r bucketPolicy (opened w) = .ok n array buckets w')
      (hreason : (∃ b ∈ buckets, b.nics = []) ∧ files' = files ∨
        selectNic p r.file bucketPolicy nicPolicy n buckets files = some (none, files')) :
      Ends t p r inAddress bucketPolicy nicPolicy files w
        ⟨0, some ⟨w.next, canonicalizeAddrString inAddress⟩, files',
          closed array (w.next + 1) buckets w'⟩
  | unwritten {n : Int} {array : Nat} {buckets : List Bucket} {w' : Ledger Object}
      {files' : Files} {nic : CStr} (hasks : Asks inAddress bucketPolicy nicPolicy)
      (hsetup : setupBuckets t r bucketPolicy (opened w) = .ok n array buckets w')
      (hselect : selectNic p r.file bucketPolicy nicPolicy n buckets files =
        some (some nic, files'))
      (hmalloc : r.malloc = false) :
      Ends t p r inAddress bucketPolicy nicPolicy files w
        ⟨-1, none, files', (closed array (w.next + 1) buckets w').release .block w.next⟩
  | resolved {n : Int} {array : Nat} {buckets : List Bucket} {w' : Ledger Object}
      {files' : Files} {nic : CStr} (hasks : Asks inAddress bucketPolicy nicPolicy)
      (hsetup : setupBuckets t r bucketPolicy (opened w) = .ok n array buckets w')
      (hall : ∀ b ∈ buckets, b.nics ≠ [])
      (hselect : selectNic p r.file bucketPolicy nicPolicy n buckets files =
        some (some nic, files')) :
      Ends t p r inAddress bucketPolicy nicPolicy files w
        ⟨0, some ⟨w'.next, canonicalizeAddrString inAddress ++ nic.text⟩, files',
          (closed array (w.next + 1) buckets (w'.create .block).2).release .block w.next⟩

theorem ends (h : resolveNic t p r inAddress bucketPolicy nicPolicy files w = some out) :
    Ends t p r inAddress bucketPolicy nicPolicy files w out := by
  rw [resolveNic] at h
  split at h
  · next hcanon =>
      obtain rfl := Option.some.inj h
      exact .unallocated (Bool.not_eq_true' _ ▸ hcanon)
  · dsimp only at h
    split at h
    · next hpass =>
        obtain rfl := Option.some.inj h
        apply Ends.passed
        rintro ⟨hnic, hbucket, haddress⟩
        simp only [Bool.or_eq_true, decide_eq_true_eq, hnic, hbucket, haddress, Bool.not_true,
          Bool.false_eq_true, or_self] at hpass
    · next hpass =>
        have hasks : Asks inAddress bucketPolicy nicPolicy := by
          simp only [Bool.or_eq_true, decide_eq_true_eq, not_or, Bool.not_eq_true',
            Bool.not_eq_false] at hpass
          exact ⟨hpass.1.1, hpass.1.2, hpass.2⟩
        split at h
        · cases h
        · next w' hsetup =>
            obtain rfl := Option.some.inj h
            exact .undivided hasks hsetup
        · next n array buckets w' hsetup =>
            split at h
            · next hempty =>
                obtain rfl := Option.some.inj h
                obtain ⟨b, hb, hnil⟩ := List.any_eq_true.mp hempty
                exact .unselected hasks hsetup (.inl ⟨⟨b, hb, List.isEmpty_iff.mp hnil⟩, rfl⟩)
            · next hempty =>
                split at h
                · cases h
                · next files' hselect =>
                    obtain rfl := Option.some.inj h
                    exact .unselected hasks hsetup (.inr hselect)
                · next nic files' hselect =>
                    split at h
                    · next hmalloc =>
                        obtain rfl := Option.some.inj h
                        exact .unwritten hasks hsetup hselect (Bool.not_eq_true' _ ▸ hmalloc)
                    · obtain rfl := Option.some.inj h
                      refine .resolved hasks hsetup ?_ hselect
                      intro b hb hnil
                      apply hempty
                      exact List.any_eq_true.mpr ⟨b, hb, List.isEmpty_iff.mpr hnil⟩

/-! ## The card -/

theorem selectBucket_nonneg {i : Int} (h : selectBucket p bucketPolicy n = some (some i)) :
    0 ≤ i := by
  rw [selectBucket] at h
  split at h
  · obtain rfl := Option.some.inj (Option.some.inj h)
    exact Int.le_refl 0
  · obtain ⟨index, -, hfilter⟩ := Option.map_eq_some_iff.mp h
    have hrange := (Option.filter_eq_some_iff.mp hfilter).2
    simp only [Bool.not_eq_true', Bool.or_eq_false_iff, decide_eq_false_iff_not, not_lt] at hrange
    exact hrange.1

/-- How a card of the bucket is drawn: the only one, or as the policy says. -/
def Drawn (p : Process) (o : FileReplies) (nicPolicy : String) (i m : Nat) (files : Files)
    (k : Nat) (files' : Files) : Prop :=
  (m = 1 ∧ files' = files) ∨
    (m ≠ 1 ∧ selectIndex p o nicPolicy i m files = (some (k : Int), files'))

theorem selectNic_some {o : FileReplies} {nic : CStr}
    (h : selectNic p o bucketPolicy nicPolicy n buckets files = some (some nic, files')) :
    ∃ (i k : Nat) (b : Bucket), selectBucket p bucketPolicy n = some (some (i : Int)) ∧
      buckets[i]? = some b ∧ b.nics[k]? = some nic ∧
      Drawn p o nicPolicy i b.nics.length files k files' := by
  rw [selectNic] at h
  split at h
  · cases h
  · cases h
  · next i hbucket =>
      have hi : ((i.toNat : Nat) : Int) = i := Int.toNat_of_nonneg (selectBucket_nonneg hbucket)
      split at h
      · cases h
      · next b hb =>
          split at h
          · next hone =>
              obtain ⟨hnic, rfl⟩ := Prod.mk.inj (Option.some.inj h)
              exact ⟨i.toNat, 0, b, hi.symm ▸ hbucket, hb, hnic, .inl ⟨hone, rfl⟩⟩
          · next hone =>
              split at h
              · cases h
              · next k files₁ hindex =>
                  split at h
                  · cases h
                  · next hk =>
                      obtain ⟨nic', hnic, heq⟩ := Option.map_eq_some_iff.mp h
                      obtain ⟨hnics, rfl⟩ := Prod.mk.inj heq
                      obtain rfl := Option.some.inj hnics
                      refine ⟨i.toNat, k.toNat, b, hi.symm ▸ hbucket, hb, hnic, .inr ⟨hone, ?_⟩⟩
                      rw [hindex, Int.toNat_of_nonneg (Int.not_lt.mp hk)]

/-! ## The address -/

theorem strstr_iff {needle hay : List Char} : strstr needle hay = true ↔ needle <:+: hay := by
  induction hay with
  | nil => rw [strstr, List.isEmpty_iff, List.infix_nil]
  | cons c cs ih =>
      rw [strstr, Bool.or_eq_true, ih, List.infix_cons_iff, List.isPrefixOf_iff_prefix]

theorem strstr_canonical (inAddress : String) :
    strstr "://".toList (canonicalizeAddrString inAddress).toList = true := by
  rw [canonicalizeAddrString]
  split
  · assumption
  · rw [strstr_iff, String.toList_append]
    exact (List.suffix_append _ _).isInfix

/-- What follows the canonical form leaves it canonical. -/
theorem canonicalizeAddrString_append (inAddress name : String) :
    canonicalizeAddrString (canonicalizeAddrString inAddress ++ name) =
      canonicalizeAddrString inAddress ++ name := by
  rw [canonicalizeAddrString, if_pos]
  rw [strstr_iff, String.toList_append]
  exact (strstr_iff.mp (strstr_canonical inAddress)).trans (List.prefix_append _ _).isInfix

/-- A name that does not end in a slash. -/
def Specific (name : String) : Prop := ∃ c ∈ name.toList.getLast?, c ≠ '/'

/-- An address with such a name asks for no card. -/
theorem asksForNic_append {name : String} (canon : String) (h : Specific name) :
    asksForNic (canon ++ name) = false := by
  obtain ⟨c, hlast, hc⟩ := h
  obtain ⟨front, hfront⟩ := List.getLast?_eq_some_iff.mp hlast
  have hreverse : (canon ++ name).toList.reverse = c :: (canon.toList ++ front).reverse := by
    rw [String.toList_append, hfront, ← List.append_assoc, List.reverse_append]
    rfl
  rw [asksForNic, hreverse, Bool.and_eq_false_iff]
  right
  split
  · next heq => exact absurd (List.cons.inj heq).1 hc
  · rfl

/-! ## Resolving -/

/-- A card of the bucket of the process is drawn, where every card has a place and every bucket
a card. -/
structure Draws (t : Topology) (p : Process) (r : Replies)
    (inAddress bucketPolicy nicPolicy : String) (files files' : Files) (name : String) : Prop where
  asks : Asks inAddress bucketPolicy nicPolicy
  drawn : ∃ (interfaces : List Interface) (n : Int) (i k : Nat),
    r.getinfo = some interfaces ∧ numBuckets t bucketPolicy = some n ∧
    (∀ cur ∈ pciCards interfaces, ∃ j : Nat, (j : Int) < n ∧
      cur.bucket t bucketPolicy n = some (j : Int)) ∧
    (∀ j : Nat, (j : Int) < n → cards t bucketPolicy n interfaces j ≠ []) ∧
    selectBucket p bucketPolicy n = some (some (i : Int)) ∧
    (cards t bucketPolicy n interfaces i)[k]? = some name ∧
    Drawn p r.file nicPolicy i (cards t bucketPolicy n interfaces i).length files k files'

theorem draws {array : Nat} {nic : CStr} (hasks : Asks inAddress bucketPolicy nicPolicy)
    (hsetup : setupBuckets t r bucketPolicy (opened w) = .ok n array buckets w')
    (hall : ∀ b ∈ buckets, b.nics ≠ [])
    (hselect : selectNic p r.file bucketPolicy nicPolicy n buckets files =
      some (some nic, files')) :
    Draws t p r inAddress bucketPolicy nicPolicy files files' nic.text := by
  obtain ⟨i, k, b, hbucket, hb, hnic, hdrawn⟩ := selectNic_some hselect
  obtain ⟨interfaces, hinfo, hdivides⟩ := setupBuckets_divides hsetup
  have hcards := hdivides.bucket i b hb
  have hlength : (cards t bucketPolicy n interfaces i).length = b.nics.length := by
    rw [← hcards, Bucket.names, List.length_map]
  refine ⟨hasks, interfaces, n, i, k, hinfo, hdivides.count, hdivides.inRange, ?_, hbucket, ?_,
    hlength.symm ▸ hdrawn⟩
  · intro j hj hnil
    have hlt : j < buckets.length := Int.ofNat_lt.mp (hdivides.length.symm ▸ hj)
    have hnames := hdivides.bucket j buckets[j] (List.getElem?_eq_getElem hlt)
    rw [hnil] at hnames
    exact hall _ (List.getElem_mem hlt) (List.map_eq_nil_iff.mp hnames)
  · rw [← hcards, Bucket.names, List.getElem?_map, hnic, Option.map_some]

/-- An address that asks for no card is passed. -/
theorem resolveNic_of_not_asks (hcanon : r.canonicalize = true)
    (h : asksForNic (canonicalizeAddrString inAddress) = false) :
    resolveNic t p r inAddress bucketPolicy nicPolicy files w =
      some ⟨0, some ⟨w.next, canonicalizeAddrString inAddress⟩, files, (w.create .block).2⟩ := by
  rw [resolveNic, if_neg (by rw [hcanon]; exact Bool.false_ne_true)]
  apply if_pos
  rw [h, Bool.not_false, Bool.or_true]

/-- A resolution fails only for want of memory. Else it gives the canonical address, or this
address with a card of the bucket of the process; and what has the name of a card is resolved
for good, whatever is there and whoever asks. -/
theorem resolve_nic
    (h : resolveNic t p r inAddress bucketPolicy nicPolicy files w = some out) :
    (out.ret = -1 ∧ out.outAddress = none ∧ (r.canonicalize = false ∨ r.malloc = false)) ∨
      (out.ret = 0 ∧ ∃ a, out.outAddress = some a ∧
        (a.text = canonicalizeAddrString inAddress ∨
          ∃ name, Draws t p r inAddress bucketPolicy nicPolicy files out.files name ∧
            a.text = canonicalizeAddrString inAddress ++ name ∧
            (Specific name → ∀ t' p' r' bucketPolicy' nicPolicy' files' w',
              r'.canonicalize = true →
              resolveNic t' p' r' a.text bucketPolicy' nicPolicy' files' w' =
                some ⟨0, some ⟨w'.next, a.text⟩, files', (w'.create .block).2⟩))) := by
  cases ends h with
  | unallocated hcanon => exact .inl ⟨rfl, rfl, .inl hcanon⟩
  | passed _ => exact .inr ⟨rfl, _, rfl, .inl rfl⟩
  | undivided hasks hsetup => exact .inr ⟨rfl, _, rfl, .inl rfl⟩
  | unselected hasks hsetup hreason => exact .inr ⟨rfl, _, rfl, .inl rfl⟩
  | unwritten hasks hsetup hselect hmalloc => exact .inl ⟨rfl, rfl, .inr hmalloc⟩
  | @resolved _ _ _ _ _ nic hasks hsetup hall hselect =>
      refine .inr ⟨rfl, _, rfl, .inr ⟨_, draws hasks hsetup hall hselect, rfl, ?_⟩⟩
      intro hspecific t' p' r' bucketPolicy' nicPolicy' files' w' hcanon
      have hcanonical := canonicalizeAddrString_append inAddress nic.text
      rw [resolveNic_of_not_asks hcanon, hcanonical]
      rw [hcanonical]
      exact asksForNic_append _ hspecific

/-- Two NUMA nodes, of which the first has two cards. -/
def twoNodes : Topology where
  nodes := 2
  children := [.package]
  pcidev pci := some ⟨if pci.busId < 2 then 0 else 1, some 0⟩

/-- A card on a bus. -/
def cardOn (busId : Nat) (name : String) : Interface :=
  ⟨name, some ⟨0, busId, 0, 0⟩, true, true⟩

/-- The cards of the two nodes. -/
def threeCards : List Interface := [cardOn 0 "cxi0", cardOn 1 "cxi1", cardOn 2 "cxi2"]

/-- A process on a NUMA node. -/
def onNode (node : Int) : Process := ⟨some (⟨node, some 0⟩, 0), some 0, 0⟩

/-- Nothing fails. -/
def allAnswered : Replies := ⟨true, true, some threeCards, true, .succeed⟩

/-- The resolution on the second NUMA node. -/
def onSecondNode : Option Resolution :=
  resolveNic twoNodes (onNode 1) allAnswered "cxi" "numa" "bycore" (fun _ => none) ⟨0, [], []⟩

/-- A process on the second NUMA node gets its only card, and keeps it. -/
theorem resolve_nic_second_node : ∃ out, onSecondNode = some out ∧
    out.outAddress.map CStr.text = some "cxi://cxi2" ∧
    resolveNic twoNodes (onNode 0) allAnswered "cxi://cxi2" "all" "random" (fun _ => none)
        ⟨0, [], []⟩ =
      some ⟨0, some ⟨0, "cxi://cxi2"⟩, fun _ => none, ⟨1, [(.block, 0)], []⟩⟩ := by
  have hsome : onSecondNode.isSome := rfl
  obtain ⟨out, hout⟩ := Option.isSome_iff_exists.mp hsome
  have htext : (onSecondNode.bind (·.outAddress)).map CStr.text = some "cxi://cxi2" := rfl
  rw [hout, Option.bind_some] at htext
  refine ⟨out, hout, htext, ?_⟩
  rcases resolve_nic hout with ⟨-, hnone, -⟩ | ⟨-, a, ha, hplain | ⟨name, -, hname, hagain⟩⟩
  · rw [hnone] at htext
    cases htext
  · rw [ha, Option.map_some, hplain] at htext
    exact absurd htext (by decide)
  · rw [ha, Option.map_some] at htext
    have hcxi : canonicalizeAddrString "cxi" ++ name = "cxi://" ++ "cxi2" :=
      hname.symm.trans (Option.some.inj htext)
    have hspecific : Specific name := by
      have happend := congrArg String.toList hcxi
      rw [String.toList_append, String.toList_append] at happend
      have htoList : name.toList = "cxi2".toList :=
        List.append_cancel_left (happend : "cxi://".toList ++ _ = "cxi://".toList ++ _)
      exact ⟨'2', by rw [htoList]; rfl, by decide⟩
    have hkept := hagain hspecific twoNodes (onNode 0) allAnswered "all" "random" (fun _ => none)
      ⟨0, [], []⟩ rfl
    rw [Option.some.inj htext] at hkept
    exact hkept

theorem owns_closed {array topology : Nat}
    (h : base.Owns w (buckets.flatMap Bucket.objects ++
      (.block, array) :: (.topology, topology) :: owned)) :
    base.Owns (closed array topology buckets w) (strings (allNics buckets) ++ owned) := by
  have hrelease := owns_releaseBuckets h
  rw [← strings_allNics] at hrelease
  exact (hrelease.perm List.perm_middle).release

theorem leaks_of_ok {array : Nat}
    (hsetup : setupBuckets t r bucketPolicy w = .ok n array buckets w')
    (h : base.Owns w owned) :
    ((allNics buckets).map CStr.text).Perm
      ((pciCards (r.getinfo.getD [])).map Interface.name) ∧
    base.Owns w' (buckets.flatMap Bucket.objects ++ (.block, array) :: owned) := by
  obtain ⟨interfaces, hinfo, hdivides⟩ := setupBuckets_divides hsetup
  rw [hinfo, Option.getD_some, text_allNics]
  exact ⟨hdivides.names, owns_setupBuckets hsetup h⟩

/-- What a resolution created and did not give back are the resolved address and the names of
cards that it put into buckets: none if it did not look for a card, all if it drew one. -/
theorem resolve_leaks (hw : w.Sound)
    (h : resolveNic t p r inAddress bucketPolicy nicPolicy files w = some out) :
    ∃ leaked placed, placed <+: pciCards (r.getinfo.getD []) ∧
      (leaked.map CStr.text).Perm (placed.map Interface.name) ∧
      w.Owns out.world (strings out.outAddress.toList ++ strings leaked) ∧
      (leaked ≠ [] → Asks inAddress bucketPolicy nicPolicy) ∧
      (∀ a ∈ out.outAddress, a.text ≠ canonicalizeAddrString inAddress →
        placed = pciCards (r.getinfo.getD [])) := by
  have hopened : w.Owns (opened w) [(.topology, w.next + 1), (.block, w.next)] :=
    (hw.owns.create .block).create .topology
  cases ends h with
  | unallocated hcanon =>
      exact ⟨[], [], List.nil_prefix, .refl _, hw.owns, fun hne => absurd rfl hne,
        fun a ha => absurd ha (Option.not_mem_none a)⟩
  | passed _ =>
      exact ⟨[], [], List.nil_prefix, .refl _, hw.owns.create .block, fun hne => absurd rfl hne,
        fun a ha hne => absurd (congrArg CStr.text (Option.some.inj ha).symm) hne⟩
  | undivided hasks hsetup =>
      obtain ⟨leaked, placed, hprefix, hperm, howns⟩ := setupBuckets_error hsetup hopened
      refine ⟨leaked, placed, hprefix, hperm, ?_, fun _ => hasks,
        fun a ha hne => absurd (congrArg CStr.text (Option.some.inj ha).symm) hne⟩
      exact ((howns.perm List.perm_middle).release).perm List.perm_append_comm
  | unselected hasks hsetup hreason =>
      obtain ⟨hnames, howns⟩ := leaks_of_ok hsetup hopened
      exact ⟨_, _, List.prefix_refl _, hnames, (owns_closed howns).perm List.perm_append_comm,
        fun _ => hasks, fun _ _ _ => rfl⟩
  | unwritten hasks hsetup hselect hmalloc =>
      obtain ⟨hnames, howns⟩ := leaks_of_ok hsetup hopened
      have hclosed := ((owns_closed howns).perm List.perm_append_comm).release
      exact ⟨_, _, List.prefix_refl _, hnames, hclosed, fun _ => hasks, fun _ _ _ => rfl⟩
  | @resolved n array buckets w' files' nic hasks hsetup hall hselect =>
      obtain ⟨hnames, howns⟩ := leaks_of_ok hsetup hopened
      have hout := (howns.create .block).perm (List.perm_append_singleton _ _).symm
      rw [List.append_assoc] at hout
      have hclosed := ((owns_closed hout).perm List.perm_middle).release
      exact ⟨_, _, List.prefix_refl _, hnames, hclosed.perm List.perm_append_comm, fun _ => hasks,
        fun _ _ _ => rfl⟩

/-- The names of the three cards are left behind, though one was drawn. -/
theorem resolve_leaks_second_node : ∃ out, onSecondNode = some out ∧
    ∃ leaked, leaked.length = 3 ∧
      (⟨0, [], []⟩ : Ledger Object).Owns out.world
        (strings out.outAddress.toList ++ strings leaked) := by
  have hsome : onSecondNode.isSome := rfl
  obtain ⟨out, hout⟩ := Option.isSome_iff_exists.mp hsome
  have htext : (onSecondNode.bind (·.outAddress)).map CStr.text = some "cxi://cxi2" := rfl
  rw [hout, Option.bind_some] at htext
  obtain ⟨a, ha, hcxi⟩ := Option.map_eq_some_iff.mp htext
  have hsound : (⟨0, [], []⟩ : Ledger Object).Sound :=
    ⟨List.nodup_nil, fun o ho => absurd ho List.not_mem_nil⟩
  obtain ⟨leaked, placed, -, hnames, howns, -, hall⟩ := resolve_leaks hsound hout
  refine ⟨out, hout, leaked, ?_, howns⟩
  have hplaced := hall a ha (by rw [hcxi]; decide)
  have hlength := hnames.length_eq
  rw [List.length_map, List.length_map, hplaced] at hlength
  exact hlength

end Margo.Plumber
