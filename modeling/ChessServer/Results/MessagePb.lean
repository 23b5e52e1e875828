import ChessServer.Lib.ProtocolBuffers.Bytes
import ChessServer.Lib.ProtocolBuffers.Parse
import ChessServer.Server.MessagePb

/-!
# The generated classes read what they write

Results about every class of `message.pb.cpp` and every object of it, for any
library that keeps what it documents.  `message_round_trip` is about objects
that were serialized, `generated_parser_eq` about any stream.
-/

namespace ChessServer

open ProtocolBuffers

theorem lawful_of_mem {d : Desc} (hd : d ∈ messageDescs) : d.lawful = true := by
  have hall : messageDescs.all Desc.lawful = true := by decide
  exact List.all_eq_true.mp hall d hd

/-- Messages are embedded twice at most: boards in halls, users in boards. -/
theorem height_le_of_mem {d : Desc} (hd : d ∈ messageDescs) :
    d.height ≤ 64 := by
  have hall : (messageDescs.all fun d => decide (d.height ≤ 64)) = true := by
    decide
  exact of_decide_eq_true (List.all_eq_true.mp hall d hd)

/-- An object that was serialized takes the bytes that were counted; parsed
into another object it is merged, up to the end of what the stream gives; and
parsed alone it comes back if it has its required fields. -/
theorem message_round_trip {U S : Type} (lib : Runtime U S)
    {Sees : S → Window → Prop} (hlib : lib.ReadsBack Sees) (d : Desc)
    (hd : d ∈ messageDescs) (x m : d.Message U) (hknown : d.Known lib m)
    (hlen : (d.serialize lib m).length < maxLength) :
    d.byteSize lib m = (d.serialize lib m).length ∧
      (∀ (s : S) (w : Window), Sees s w → d.height ≤ w.levels →
        w.bytes = d.serialize lib m →
        ∃ s', d.mergePartial lib x s = some (d.mergeFrom lib x m, s') ∧
          Sees s' (w.left []) ∧ lib.consumedEntireMessage s' = true) ∧
      d.parseFromString lib (d.serialize lib m) =
        if d.isInitialized m then some m else none := by
  have hlaw := lawful_of_mem hd
  refine ⟨byteSize_eq hlib hlaw m hlen, ?_, ?_⟩
  · intro s w hs hheight hbytes
    exact mergePartial_serialize hlib hlaw x m hknown hlen hheight hs hbytes
  · exact parse_serialize hlib hlaw (height_le_of_mem hd) m hknown hlen

/-- A hall with one board, at which one user sits; and a status of 1 that is
merged into a status 0. -/
theorem message_round_trip_hall :
    HallInfo.desc.parseFromString bytesRuntime
        (HallInfo.desc.serialize bytesRuntime
          (some 1, some 1, some 1, some 100,
            [(some 7, some 1,
              some (some false, some [65], some [65], some (-30), none, none,
                none, some 2, ()),
              some (some true, none, none, none, none, none, none, none, ()),
              some (some true, none, none, none, none, none, none, none, ()),
              ())], ())) =
      some (some 1, some 1, some 1, some 100,
        [(some 7, some 1,
          some (some false, some [65], some [65], some (-30), none, none, none,
            some 2, ()),
          some (some true, none, none, none, none, none, none, none, ()),
          some (some true, none, none, none, none, none, none, none, ()),
          ())], ()) ∧
      ∃ s, ReplyStatus.desc.mergePartial bytesRuntime (some 0, none, none, ())
          ⟨⟨ReplyStatus.desc.serialize bytesRuntime (some 1, none, none, ()),
            [], 2, 64⟩, false⟩ =
        some ((some 1, none, none, ()), s) := by
  constructor
  · have hround := (message_round_trip bytesRuntime bytesRuntime_readsBack
      HallInfo.desc (by decide) (HallInfo.desc.clear bytesRuntime)
      (some 1, some 1, some 1, some 100,
        [(some 7, some 1,
          some (some false, some [65], some [65], some (-30), none, none, none,
            some 2, ()),
          some (some true, none, none, none, none, none, none, none, ()),
          some (some true, none, none, none, none, none, none, none, ()),
          ())], ())
      (by simp [Desc.Known, Label.toList]) (by decide)).2.2
    rw [hround]
    rfl
  · obtain ⟨s, hmerge, _⟩ := (message_round_trip bytesRuntime
      bytesRuntime_readsBack ReplyStatus.desc (by decide) (some 0, none, none, ())
      (some 1, none, none, ()) (by simp [Desc.Known, Label.toList])
      (by decide)).2.1
        ⟨⟨ReplyStatus.desc.serialize bytesRuntime (some 1, none, none, ()),
          [], 2, 64⟩, false⟩ _ rfl (by decide) rfl
    exact ⟨s, hmerge⟩

/-- The parser with its jumps reads a tag and its field and goes on, as the
loop around the `switch` does, whatever it is given; and no other parser
does. -/
theorem generated_parser_eq {U S : Type} (lib : Runtime U S)
    (hlib : lib.Reads) (d : Desc) (hd : d ∈ messageDescs) :
    (∀ (m : d.Message U) (s : S), d.mergePartial lib m s =
      Desc.plainLoop lib (fun d => d.mergePartial lib) d m s) ∧
      ∀ parse : Parser U S, (∀ d : Desc, d.lawful = true → ∀ m s,
          parse d m s = Desc.plainLoop lib parse d m s) →
        ∀ m s, parse d m s = d.mergePartial lib m s := by
  have hlaw := lawful_of_mem hd
  constructor
  · exact mergePartial_plainLoop hlib hlaw
  · intro parse hparse
    exact plainLoop_unique hlib hparse hlaw

/-- The locate of a request to play before its hall; the tag of the end of a
group stops the parser in front of the board. -/
theorem generated_parser_eq_swapped :
    Desc.plainLoop bytesRuntime (fun d => d.mergePartial bytesRuntime)
        RequestPlay.desc (RequestPlay.desc.clear bytesRuntime)
        ⟨⟨[24, 2, 8, 1, 12, 16, 3], [], 7, 64⟩, false⟩ =
      some ((some 1, none, some 2, ()), ⟨⟨[16, 3], [], 7, 64⟩, false⟩) := by
  rw [← (generated_parser_eq bytesRuntime bytesRuntime_reads RequestPlay.desc
    (by decide)).1]
  rfl

end ChessServer
