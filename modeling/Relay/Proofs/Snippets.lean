import Relay.Proofs.Mentions
import Relay.Proofs.Decoding

/-!
# Lines and snippets

A fact is told with the line that its node starts on and with the text of that
line.  The number of the line is found by counting line feeds among the bytes,
and its text is cut out of what the file is read as, with ill-formed bytes left
out.  The two agree for every file, because reading commutes with cutting into
lines.

`LineAround` says which bytes are the line of a place without counting
anything.  The line with the number of a place is the line around it
(`getElem?_splitOn_of_lineAround`), so every number is in range and every
snippet is the text of the line (`shows_lineAt`).  What remains is that every
fact of a file has its number and its snippet from a node of the file.
-/

namespace Relay

open Analysis Syntax

/-- A list is parted into one part more than it has separators. -/
theorem length_splitOn {α : Type} [BEq α] (sep : α) (items : List α) :
    (items.splitOn sep).length = items.count sep + 1 := by
  induction items with
  | nil => rfl
  | cons a items ih =>
      rw [List.splitOn_cons_eq_if_modifyHead, List.count_cons]
      split
      · rw [List.length_cons, ih]
      · rw [List.length_modifyHead, ih]

/-- Some bytes are the line around a place: they reach back from there to the
line feed before, or to the start of the file, and on to the next line feed, or
to the end of the file. -/
def LineAround (bytes : List UInt8) (position : Nat) (line : List UInt8) :
    Prop :=
  ∃ before after, bytes = before ++ line ++ after ∧ 0x0A ∉ line ∧
    (before = [] ∨ before.getLast? = some 0x0A) ∧
      (after = [] ∨ after.head? = some 0x0A) ∧
    before.length ≤ position ∧
      (position ≤ before.length + line.length ∨ after = [])

/-- Bytes are cut before the first line feed among them. -/
theorem exists_cut_before (bytes : List UInt8) :
    ∃ line after, bytes = line ++ after ∧
    0x0A ∉ line ∧ (after = [] ∨ after.head? = some 0x0A) := by
  by_cases hmem : 0x0A ∈ bytes
  · obtain ⟨line, after, rfl, hline⟩ := List.eq_append_cons_of_mem hmem
    exact ⟨line, 0x0A :: after, rfl, hline, .inr rfl⟩
  · exact ⟨bytes, [], (List.append_nil _).symm, hmem, .inl rfl⟩

/-- Bytes are cut after the last line feed among them. -/
theorem exists_cut_after (bytes : List UInt8) :
    ∃ before line, bytes = before ++ line ∧
    0x0A ∉ line ∧ (before = [] ∨ before.getLast? = some 0x0A) := by
  obtain ⟨line, before, hbytes, hline, hbefore⟩ :=
    exists_cut_before bytes.reverse
  refine ⟨before.reverse, line.reverse,
    ?_, by simpa using hline, by simpa using hbefore⟩
  rw [← List.reverse_append, ← hbytes, List.reverse_reverse]

/-- Every place in a file has a line around it. -/
theorem exists_lineAround (bytes : List UInt8) (position : Nat) :
    ∃ line, LineAround bytes position line := by
  obtain ⟨before, left, hleft, hplainLeft, hbefore⟩ :=
    exists_cut_after (bytes.take position)
  obtain ⟨right, after, hright, hplainRight, hafter⟩ :=
    exists_cut_before (bytes.drop position)
  have hbytes : bytes = before ++ (left ++ right) ++ after := by
    rw [← List.take_append_drop position bytes, hleft, hright]
    simp
  have hlength := congrArg List.length hleft
  rw [List.length_take, List.length_append] at hlength
  have hplain : 0x0A ∉ left ++ right := by simp [hplainLeft, hplainRight]
  refine ⟨left ++ right, before, after, hbytes, hplain, hbefore,
    hafter, by omega, ?_⟩
  by_cases hend : bytes.length ≤ position
  · rw [List.drop_eq_nil_of_le hend] at hright
    exact .inr (List.append_eq_nil_iff.mp hright.symm).2
  · rw [List.length_append]
    exact .inl (by omega)

/-- The line feeds before a place are those before its line. -/
theorem lineFeeds_take_of_lineAround {before line after : List UInt8}
    {position : Nat} (hplain : 0x0A ∉ line) (hstart : before.length ≤ position)
    (hstop : position ≤ before.length + line.length ∨ after = []) :
    lineFeeds ((before ++ line ++ after).take position) = lineFeeds before := by
  have htake : (before ++ line ++ after).take position
      = before ++ line.take (position - before.length) := by
    rw [List.take_append, List.take_append, List.take_of_length_le hstart]
    rcases hstop with hstop | rfl
    · rw [List.length_append, Nat.sub_eq_zero_of_le hstop, List.take_zero,
        List.append_nil]
    · rw [List.take_nil, List.append_nil]
  have hnone : (line.take (position - before.length)).count 0x0A = 0 :=
    List.count_eq_zero.mpr fun hmem => hplain (List.mem_of_mem_take hmem)
  rw [htake, lineFeeds, List.count_append, hnone, Nat.add_zero, lineFeeds]

/-- The line around a place has the number of the place. -/
theorem getElem?_splitOn_of_lineAround {bytes line : List UInt8}
    {position : Nat} (h : LineAround bytes position line) :
    (bytes.splitOn 0x0A)[lineFeeds (bytes.take position)]? = some line := by
  obtain ⟨before, after, rfl, hplain, hbefore, hafter, hstart, hstop⟩ := h
  have hfirst : ((line ++ after).splitOn 0x0A)[0]? = some line := by
    rcases hafter with rfl | hafter
    · rw [List.append_nil, List.splitOn_eq_singleton hplain]
      rfl
    · obtain ⟨rest, rfl⟩ := List.head?_eq_some_iff.mp hafter
      rw [List.splitOn_append_cons_self_of_not_mem hplain]
      rfl
  rw [lineFeeds_take_of_lineAround hplain hstart hstop, List.append_assoc]
  rcases hbefore with rfl | hbefore
  · exact hfirst
  · -- The line feed before the line closes as many lines as are counted.
    obtain ⟨init, rfl⟩ := List.getLast?_eq_some_iff.mp hbefore
    have hlines : (init.splitOn 0x0A).length = lineFeeds (init ++ [0x0A]) := by
      rw [length_splitOn, lineFeeds, List.count_append]
      rfl
    rw [List.append_assoc, List.singleton_append, List.splitOn_append_cons_self,
      List.getElem?_append_right (by omega), hlines, Nat.sub_self]
    exact hfirst

/-- The bytes of the lines of a file, without the line feeds between them. -/
def byteLines (bytes : ByteArray) : List (List UInt8) :=
  bytes.data.toList.splitOn 0x0A

/-- The text of a line without the blanks around it. -/
def lineText (line : List UInt8) : String :=
  Text.strip (String.ofList (Text.decodeLossy line))

/-- A number and a snippet tell the line of a place in a file. -/
structure Shows (bytes : ByteArray) (position line : Nat) (snippet : String) :
    Prop where
  counted : line = lineAt bytes position
  inRange : 1 ≤ line ∧ line ≤ (linesOf bytes).length
  told : ∃ content, (byteLines bytes)[line - 1]? = some content ∧
    LineAround bytes.data.toList position content ∧ snippet = lineText content

/-- The bytes up to an end are the first ones. -/
theorem slice_zero (bytes : ByteArray) (stop : Nat) :
    Text.slice bytes 0 stop = bytes.data.toList.take stop := by
  rw [Text.slice, ByteArray.data_extract, Array.toList_extract,
    List.extract_eq_take_drop]
  simp

/-- The lines of a file are what the bytes of its lines are read as. -/
theorem linesOf_eq (bytes : ByteArray) :
    linesOf bytes = (byteLines bytes).map fun line =>
      String.ofList (Text.decodeLossy line) := by
  rw [linesOf, Text.split, Text.textOf, String.toList_ofList,
    Text.splitOn_decodeLossy, List.map_map]
  rfl

/-- **Snippets are found by number.** -/
theorem shows_lineAt (bytes : ByteArray) (position : Nat) :
    Shows bytes position (lineAt bytes position)
    (snippetAt bytes (lineAt bytes position)) := by
  obtain ⟨content, hcontent⟩ := exists_lineAround bytes.data.toList position
  have hline : (byteLines bytes)[lineAt bytes position - 1]? =
      some content := by
    rw [lineAt, slice_zero]
    exact getElem?_splitOn_of_lineAround hcontent
  have hpos : 1 ≤ lineAt bytes position := Nat.le_add_left _ _
  refine ⟨rfl, ⟨hpos, ?_⟩, content, hline, hcontent, ?_⟩
  · obtain ⟨hlt, -⟩ := List.getElem?_eq_some_iff.mp hline
    rw [linesOf_eq, List.length_map]
    omega
  · have hnat : ((lineAt bytes position : Nat) : Int).toNat =
        lineAt bytes position :=
      Int.toNat_natCast _
    rw [snippetAt, if_neg (by omega), hnat, linesOf_eq,
      List.getElem?_map, hline]
    rfl

/-- A file is read with as many line feeds as it has. -/
theorem count_textOf (bytes : ByteArray) :
    (Text.textOf bytes).toList.count '\n' = lineFeeds bytes.data.toList := by
  have hlength :=
    congrArg List.length (Text.splitOn_decodeLossy bytes.data.toList)
  rw [List.length_map, length_splitOn, length_splitOn] at hlength
  rw [Text.textOf, String.toList_ofList, lineFeeds]
  omega

namespace Analysis

variable {s : Source} {isLibrary expand : Bool} {n : Node} {around : List Node}
  {m : Mention}

/-- Whatever a node mentions is mentioned on the line that the node
starts on. -/
theorem line_of_mem_mentionsAt (h : m ∈ mentionsAt s expand n around) :
    m.line = s.lineOf n := by
  rcases cases_of_mem_mentionsAt h with
    h | ⟨callee, h⟩ | ⟨-, -, -, h⟩ | ⟨-, h⟩ | h
  · obtain ⟨kind, h | h⟩ := exists_of_mem_accessMentions h
    · obtain ⟨b, property, rfl, -⟩ := mem_stateMentions_iff.mp h
      rfl
    · obtain ⟨f, property, rfl, -⟩ := exists_of_mem_dataMentions h
      rfl
  · obtain ⟨f, property, kind, rfl⟩ := exists_of_mem_methodMentions h
    rfl
  · obtain ⟨b, property, rfl, -⟩ := mem_mergeMentions_iff.mp h
    rfl
  · obtain ⟨-, b, property, rfl, -⟩ := mem_assignmentMentions_iff.mp h
    rfl
  · obtain ⟨argument, -, -, h⟩ := exists_of_mem_deletionMentions h
    obtain ⟨b, property, rfl, -⟩ := mem_stateMentions_iff.mp h
    rfl

/-- The line that a node starts on, told by its number and its text. -/
theorem shows_of_lineOf {line : Nat} {snippet : String}
    (hline : line = s.lineOf n) (hsnippet : snippet = s.snippet line) :
    Shows s.bytes n.start line snippet := by
  rw [hsnippet, hline]
  exact shows_lineAt s.bytes n.start

/-- A usage tells the line of the node that gives it by itself. -/
theorem shows_of_gathers {α β : Type} [DecidableEq β]
    {view : Collector → Collection α β} {pick : Mention → Option α}
    {mark : α → β} (h : Gathers s isLibrary view pick mark) {line : α → Nat}
    {snippet : α → String}
    (hpick : ∀ m u, pick m = some u →
      line u = m.line ∧ snippet u = s.snippet m.line)
    {u : α} (hu : u ∈ (view (Collector.of s isLibrary expand)).items) :
    ∃ v ∈ entered (walkAll s.tree),
      u ∈ (view (Collector.visit s isLibrary expand {} v)).items ∧
        Shows s.bytes v.node.start (line u) (snippet u) := by
  rw [h.items_of_eq_unique] at hu
  obtain ⟨v, hv, hu⟩ := List.mem_flatMap.mp (mem_of_mem_uniqueFrom hu)
  refine ⟨v, hv, hu, ?_⟩
  rw [h.items_visit_empty] at hu
  obtain ⟨m, hm, hmu⟩ := List.mem_filterMap.mp (mem_of_mem_uniqueFrom hu)
  obtain ⟨hline, hsnippet⟩ := hpick m u hmu
  apply shows_of_lineOf
  · rw [hline, line_of_mem_mentionsAt hm]
  · rw [hsnippet, hline]

/-- A usage of a bag is on the line of the mention that it comes from. -/
theorem line_of_usage? {b : Bag} {k : UsageKind} {u : PropertyUsage}
    (h : m.usage? s isLibrary b k = some u) :
    u.line = m.line ∧ u.snippet = s.snippet m.line := by
  obtain ⟨rfl, hu⟩ := Mention.usage?_eq_some_iff.mp h
  exact ⟨rfl, congrArg PropertyUsage.snippet hu⟩

/-- A usage of a facet is on the line of the mention that it comes from. -/
theorem line_of_dataUsage? {u : DataUsage}
    (h : m.dataUsage? s isLibrary = some u) :
    u.line = m.line ∧ u.snippet = s.snippet m.line := by
  obtain ⟨rfl, hu⟩ := Mention.dataUsage?_eq_some_iff.mp h
  exact ⟨rfl, congrArg DataUsage.snippet hu⟩

/-- What a walk has gathered at its end comes from one of its moments. -/
theorem exists_of_mem_foldl {σ α : Type} {step : σ → Visit → σ}
    (view : σ → List α) {From : Visit → α → Prop}
    (hstep : ∀ known v, ∀ a ∈ view (step known v), a ∈ view known ∨ From v a)
    {visits : List Visit} {known : σ} {a : α}
    (h : a ∈ view (visits.foldl step known)) :
    a ∈ view known ∨ ∃ v ∈ visits, From v a := by
  induction visits generalizing known with
  | nil => exact .inl h
  | cons v visits ih =>
      rcases ih h with h | ⟨w, hw, hfrom⟩
      · rcases hstep known v a h with h | hfrom
        · exact .inl h
        · exact .inr ⟨v, List.mem_cons_self, hfrom⟩
      · exact .inr ⟨w, List.mem_cons_of_mem _ hw, hfrom⟩

/-- A call of a service comes from a node that makes it, by some table of
names. -/
def CallFrom (s : Source) (v : Visit) (c : ServiceCall) : Prop :=
  v.node.kind = .callExpression ∧
    (∃ table template, serviceAt? s.bytes table v.node v.enclosing =
      some (c.family, template) ∧ c.template = some template) ∧
    Shows s.bytes v.node.start c.line c.snippet

/-- One moment of a walk adds no call but one that its node makes. -/
theorem callFrom_of_mem_visit (known : ServiceCalls) (v : Visit) :
    ∀ c ∈ (ServiceCalls.visit s isLibrary known v).found.items,
      c ∈ known.found.items ∨ CallFrom s v c := by
  intro c hc
  unfold ServiceCalls.visit at hc
  by_cases hkind : v.node.kind = .callExpression
  · simp only [hkind, if_true] at hc
    split at hc
    · rename_i family template hfound
      rcases Collection.mem_of_mem_items_add hc with hc | rfl
      · exact .inl hc
      · exact .inr ⟨hkind, ⟨_, template, hfound, rfl⟩, shows_of_lineOf rfl rfl⟩
    · exact .inl hc
  · simp only [hkind, if_false] at hc
    exact .inl hc

/-- A look-up comes from a node that makes it. -/
def LookupFrom (s : Source) (v : Visit) (l : Lookup) : Prop :=
  v.node.kind = .callExpression ∧
    lookupAt? s.bytes v.node = some (l.source, l.key) ∧
    Shows s.bytes v.node.start l.line l.snippet

/-- One moment of a walk adds no look-up but one that its node makes. -/
theorem lookupFrom_of_mem_visit (known : Collection Lookup (String × String))
    (v : Visit) : ∀ l ∈ (visitLookup s known v).items,
      l ∈ known.items ∨ LookupFrom s v l := by
  intro l hl
  unfold visitLookup at hl
  split at hl
  · rename_i hkind
    split at hl
    · rename_i source key hfound
      rcases Collection.mem_of_mem_items_add hl with hl | rfl
      · exact .inl hl
      · exact .inr ⟨hkind, hfound, shows_of_lineOf rfl rfl⟩
    · exact .inl hl
  · exact .inl hl

end Analysis

/-- **Lines and snippets agree.**  A file is read with as many line feeds as
there are among its bytes, and what is read leaves out ill-formed bytes and
nothing else.  For every place in the file the line with the number of the
place is in range, and its text is that of the bytes between the line feeds
around the place.  So whatever is found in a file, be it a usage, a call or a
look-up, comes from a node of the file, and tells the number and the text of
the line that the node starts on. -/
theorem snippets_agree (s : Source) (isLibrary expand : Bool) :
    (Text.textOf s.bytes).toList.count '\n' = lineFeeds s.bytes.data.toList ∧
    Text.Reads s.bytes.data.toList (Text.textOf s.bytes).toList ∧
    (∀ o, Shows s.bytes o (lineFeeds (Text.slice s.bytes 0 o) + 1)
      (s.snippet (lineFeeds (Text.slice s.bytes 0 o) + 1))) ∧
    (∀ b k, ∀ u ∈ (Usages.of s isLibrary expand).inBag b k,
      ∃ v ∈ entered (walkAll s.tree),
        u ∈ (Collector.visit s isLibrary expand {} v).usages.inBag b k ∧
        Shows s.bytes v.node.start u.line u.snippet) ∧
    (∀ u ∈ (Usages.of s isLibrary expand).data, ∃ v ∈ entered (walkAll s.tree),
      u ∈ (Collector.visit s isLibrary expand {} v).usages.data ∧
        Shows s.bytes v.node.start u.line u.snippet) ∧
    (∀ c ∈ ServiceCalls.of s isLibrary, ∃ v ∈ entered (walkAll s.tree),
      CallFrom s v c) ∧
    ∀ l ∈ lookupsOf s, ∃ v ∈ entered (walkAll s.tree), LookupFrom s v l := by
  refine ⟨count_textOf s.bytes, ?_, fun o => shows_lineAt s.bytes o, ?_,
    ?_, ?_, ?_⟩
  · rw [Text.textOf, String.toList_ofList]
    exact Text.reads_decodeLossy _
  · intro b k u hu
    rw [Usages.of, Collector.inBag_usages] at hu
    simp only [Collector.inBag_usages]
    exact shows_of_gathers (gathers_collection s isLibrary b k)
      (fun _ _ => line_of_usage?) hu
  · intro u hu
    exact shows_of_gathers (gathers_data s isLibrary) (fun _ _ =>
      line_of_dataUsage?) hu
  · intro c hc
    rcases exists_of_mem_foldl (fun known : ServiceCalls => known.found.items)
      callFrom_of_mem_visit hc with hc | h
    · cases hc
    · exact h
  · intro l hl
    rcases exists_of_mem_foldl Collection.items lookupFrom_of_mem_visit hl with
      hl | h
    · cases hl
    · exact h

/-- Two lines.  The first one ends with a byte that starts a character,
which is cut short by the line feed, and the second one has such a byte
in a string. -/
def strayBytes : ByteArray :=
  ⟨#[0x2F, 0x2F, 0xC3, 0x0A, 0x72, 0x65, 0x71, 0x2E, 0x68, 0x65, 0x61, 0x64,
    0x65, 0x72, 0x28, 0x27, 0xE9, 0x78, 0x27, 0x29]⟩

/-- The call on the second line. -/
def strayCall : Node :=
  ⟨.callExpression, none, 4, 20, [
    ⟨.memberExpression, some .function, 4, 14,
      [⟨.identifier, some .object, 4, 7, []⟩,
      ⟨.token ".", none, 7, 8, []⟩,
      ⟨.propertyIdentifier, some .property, 8, 14, []⟩]⟩,
    ⟨.arguments, some .arguments, 14, 20, [⟨.token "(", none, 14, 15, []⟩,
      ⟨.string, none, 15, 19, []⟩, ⟨.token ")", none, 19, 20, []⟩]⟩]⟩

/-- The statement that the call is. -/
def strayStatement : Node :=
  ⟨.expressionStatement, none, 4, 20, [strayCall]⟩

/-- The file with its tree. -/
def straySource : Source :=
  ⟨⟨.here, ["a.js"]⟩, strayBytes,
    ⟨.program, none, 0, 20, [⟨.comment, none, 0, 3, []⟩, strayStatement]⟩⟩

/-- The header that the call reads is named on the second line, without the
stray byte. -/
theorem snippets_agree_stray :
    ∃ u ∈ (Usages.of straySource false true).data, u.facet = .requestHeaders ∧
      u.property = "x" ∧ u.line = 2 ∧ u.snippet = "req.header('x')" := by
  have hstands : strayCall.Stands straySource.tree [strayStatement,
      straySource.tree] := by
    have hstatement :
        strayStatement.Stands straySource.tree [straySource.tree] :=
      .under (by simp [straySource]) .root
    exact hstatement.child (by simp [strayStatement])
  have hmention : ⟨.data .requestHeaders "x", .read, 2⟩
      ∈ mentionsAt straySource true strayCall [strayStatement,
          straySource.tree] := by
    decide
  have hrecords : (Usages.of straySource false true).Records
      ⟨.data .requestHeaders "x", .read, 2⟩ := by
    rw [Usages.records_of_iff]
    exact ⟨⟨.enter, strayCall, _⟩, mem_entered_walkAll.mpr ⟨rfl, hstands⟩,
      hmention⟩
  obtain ⟨u, hu, hfacet, hproperty, -, hline⟩ := hrecords
  obtain ⟨-, -, -, -, hdata, -, -⟩ := snippets_agree straySource false true
  obtain ⟨v, -, -, -, -, content, hcontent, -, hsnippet⟩ := hdata u hu
  have hsecond : (byteLines strayBytes)[1]? =
      some (strayBytes.data.toList.drop 4) := by decide
  have htext : lineText (strayBytes.data.toList.drop 4) =
      "req.header('x')" := by decide
  rw [hline] at hcontent
  obtain rfl : _ = content := Option.some.inj (hsecond.symm.trans hcontent)
  exact ⟨u, hu, hfacet, hproperty, hline, hsnippet.trans htext⟩

end Relay
