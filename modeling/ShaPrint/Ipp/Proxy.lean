import ShaPrint.Ipp.Request

/-!
`prepare_proxy_request` of `adapters/ipps/protocol.rs`: the client proxy's
rewriting of a request before it is forwarded. The local printer URI is replaced
by the remote one and the configured Network Channel is injected; document bytes
are passed on as they are.

* `writeTextAttribute`: one attribute as the rewriter writes it.
* `prepareLoop`: the rewriting loop, with the raw name of the attribute the
  current value belongs to, the two replaced flags and the output so far.
* `prepareProxyRequest`: the whole function, which first runs the decoder.
-/

namespace ShaPrint.Ipp

open BigEndian

/-- Writes a text attribute: tag, name and value, both length-prefixed. -/
def writeTextAttribute (tag : UInt8) (name value : String) : Bytes :=
  tag :: (be16 (asBytes name).length ++ asBytes name
    ++ be16 (asBytes value).length ++ asBytes value)

/-- Writes the configured Network Channel, if there is one. -/
def writeChannel : Option String → Bytes
  | some channel => writeTextAttribute Tag.text "network-channel" channel
  | none => []

/-- What is written before the end-of-attributes tag for the attributes the
request did not carry. -/
def missingAttributes (remotePrinterUri : String) (networkChannel : Option String)
    (replacedPrinter replacedChannel : Bool) : Bytes :=
  (if replacedPrinter then [] else writeTextAttribute Tag.uri "printer-uri" remotePrinterUri)
    ++ writeChannel (networkChannel.filter fun _ => !replacedChannel)

/-- The raw name the loop holds after a value: an additional value has an empty
name and belongs to the attribute before it. -/
def nextName (currentName name : Bytes) : Bytes := if name = [] then currentName else name

/-- The rewriting loop over the bytes from the current position on. -/
def prepareLoop (remotePrinterUri : String) (networkChannel : Option String)
    (currentName : Bytes) (replacedPrinter replacedChannel : Bool) (output bytes : Bytes) :
    Except ParseError Bytes :=
  match bytes with
  | [] => .error .truncated
  | tag :: rest =>
      if tag = 0x03 then
        .ok (output ++ missingAttributes remotePrinterUri networkChannel replacedPrinter
          replacedChannel ++ tag :: rest)
      else if 0x01 ≤ tag ∧ tag ≤ 0x05 then
        prepareLoop remotePrinterUri networkChannel [] replacedPrinter replacedChannel
          (output ++ [tag]) rest
      else
        match _hname : readRaw rest with
        | .error e => .error e
        | .ok (name, rest') =>
            let currentName := nextName currentName name
            match _hvalue : readRaw rest' with
            | .error e => .error e
            | .ok (_, rest'') =>
                if currentName = asBytes "printer-uri" then
                  if name = [] then
                    prepareLoop remotePrinterUri networkChannel currentName replacedPrinter
                      replacedChannel output rest''
                  else if replacedPrinter then .error .notText
                  else
                    prepareLoop remotePrinterUri networkChannel currentName true replacedChannel
                      (output ++ (tag :: (be16 name.length ++ name
                        ++ be16 (asBytes remotePrinterUri).length
                        ++ asBytes remotePrinterUri))) rest''
                else if currentName = asBytes "network-channel" then
                  if name = [] then
                    prepareLoop remotePrinterUri networkChannel currentName replacedPrinter
                      replacedChannel output rest''
                  else if replacedChannel then .error .notText
                  else
                    prepareLoop remotePrinterUri networkChannel currentName replacedPrinter true
                      (output ++ writeChannel networkChannel) rest''
                else
                  -- the bytes of this value, from its tag to its end
                  prepareLoop remotePrinterUri networkChannel currentName replacedPrinter
                    replacedChannel (output ++ bytes.take (bytes.length - rest''.length)) rest''
  termination_by bytes.length
  decreasing_by
    · simp_wf
    all_goals
      have h1 := readRaw_length ‹readRaw rest = _›
      have h2 := readRaw_length ‹readRaw rest' = _›
      simp_all only [List.length_cons]
      omega

/-- One turn of the rewriting loop. -/
lemma prepareLoop_cons (uri : String) (channel : Option String)
    (currentName : Bytes) (replacedPrinter replacedChannel : Bool) (output : Bytes) (tag : UInt8)
    (rest : Bytes) :
    prepareLoop uri channel currentName replacedPrinter replacedChannel output (tag :: rest) =
      if tag = 0x03 then
        .ok (output ++ missingAttributes uri channel replacedPrinter
          replacedChannel ++ tag :: rest)
      else if 0x01 ≤ tag ∧ tag ≤ 0x05 then
        prepareLoop uri channel [] replacedPrinter replacedChannel
          (output ++ [tag]) rest
      else
        match readRaw rest with
        | .error e => .error e
        | .ok (name, rest') =>
            let currentName := nextName currentName name
            match readRaw rest' with
            | .error e => .error e
            | .ok (_, rest'') =>
                if currentName = asBytes "printer-uri" then
                  if name = [] then
                    prepareLoop uri channel currentName replacedPrinter
                      replacedChannel output rest''
                  else if replacedPrinter then .error .notText
                  else
                    prepareLoop uri channel currentName true replacedChannel
                      (output ++ (tag :: (be16 name.length ++ name
                        ++ be16 (asBytes uri).length
                        ++ asBytes uri))) rest''
                else if currentName = asBytes "network-channel" then
                  if name = [] then
                    prepareLoop uri channel currentName replacedPrinter
                      replacedChannel output rest''
                  else if replacedChannel then .error .notText
                  else
                    prepareLoop uri channel currentName replacedPrinter true
                      (output ++ writeChannel channel) rest''
                else
                  prepareLoop uri channel currentName replacedPrinter
                    replacedChannel
                    (output ++ (tag :: rest).take ((tag :: rest).length - rest''.length)) rest'' := by
  rw [prepareLoop.eq_def]
  simp only
  refine ite_congr rfl (fun _ => rfl) fun _ => ite_congr rfl (fun _ => rfl) fun _ => ?_
  cases hname : readRaw rest with
  | error e => split <;> simp_all
  | ok p =>
      split
      · simp_all
      · rename_i heq
        obtain rfl := Except.ok.inj heq
        simp only
        split
        · simp_all
        · simp_all

/-- Rewrites the local printer URI and injects the Network Channel. -/
def prepareProxyRequest (bytes : Bytes) (remotePrinterUri : String)
    (networkChannel : Option String) : Except ParseError Bytes :=
  match Request.parse bytes with
  | .error e => .error e
  | .ok _ =>
      prepareLoop remotePrinterUri networkChannel [] false false (bytes.take 8) (bytes.drop 8)

end ShaPrint.Ipp
