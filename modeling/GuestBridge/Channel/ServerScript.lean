/-!
# The server script

The guest code that the child program runs: it keeps the table of the objects behind handles,
reads requests from its input, evaluates them, and writes a reply line for each.
-/

namespace GuestBridge.Channel

/-- The lines of the server script. -/
def serverLines : List String :=
  [
    "# Request loop run inside the `julia` child process.",
    "#",
    "# Framing, one request at a time:",
    "#   host  -> julia: \"<byte length>[ <released id>...]\\n<code bytes>\"",
    "#   julia -> host:  one JSON line, \x7b\"ok\": <value>\x7d or \x7b\"err\": \x7b\"type\": ..., \"message\": ...\x7d\x7d",
    "#",
    "# Released ids name handles the host dropped; their objects leave the table",
    "# before the code runs.",
    "#",
    "# User code printing to stdout would corrupt the reply stream, so stdout is",
    "# redirected to stderr before the ready line is written.",
    "",
    "module __jlext__",
    "",
    "const objects = Dict\x7bInt,Any\x7d()",
    "const last_id = Ref(0)",
    "",
    "handle(id::Integer) = objects[id]",
    "",
    "function store(x)",
    "    last_id[] += 1",
    "    objects[last_id[]] = x",
    "    return last_id[]",
    "end",
    "",
    "function release(ids::Integer...)",
    "    for id in ids",
    "        delete!(objects, id)",
    "    end",
    "    return nothing",
    "end",
    "",
    "function write_string(io::IO, s::AbstractString)",
    "    print(io, '\"')",
    "    for c in s",
    "        if c == '\"'",
    "            print(io, \"\\\\\\\"\")",
    "        elseif c == '\\\\'",
    "            print(io, \"\\\\\\\\\")",
    "        elseif c == '\\n'",
    "            print(io, \"\\\\n\")",
    "        elseif c == '\\r'",
    "            print(io, \"\\\\r\")",
    "        elseif c == '\\t'",
    "            print(io, \"\\\\t\")",
    "        elseif c < ' ' || c == '\\x7f'",
    "            print(io, \"\\\\u\", string(UInt32(c), base = 16, pad = 4))",
    "        else",
    "            print(io, c)",
    "        end",
    "    end",
    "    print(io, '\"')",
    "end",
    "",
    "function write_seq(io::IO, xs)",
    "    print(io, '[')",
    "    first = true",
    "    for x in xs",
    "        first || print(io, ',')",
    "        first = false",
    "        encode(io, x)",
    "    end",
    "    print(io, ']')",
    "end",
    "",
    "encode(io::IO, ::Nothing) = print(io, \"null\")",
    "encode(io::IO, x::Bool) = print(io, x ? \"true\" : \"false\")",
    "encode(io::IO, x::AbstractString) = write_string(io, x)",
    "encode(io::IO, x::AbstractVector) = write_seq(io, x)",
    "",
    "function encode(io::IO, x::Integer)",
    "    if typemin(Int64) <= x <= typemax(Int64)",
    "        print(io, Int64(x))",
    "    else",
    "        encode_handle(io, x)",
    "    end",
    "end",
    "",
    "function encode(io::IO, x::AbstractFloat)",
    "    y = Float64(x)",
    "    if isnan(y)",
    "        print(io, \"\x7b\\\"float\\\":\\\"NaN\\\"\x7d\")",
    "    elseif isinf(y)",
    "        print(io, y > 0 ? \"\x7b\\\"float\\\":\\\"Inf\\\"\x7d\" : \"\x7b\\\"float\\\":\\\"-Inf\\\"\x7d\")",
    "    else",
    "        print(io, repr(y))",
    "    end",
    "end",
    "",
    "function encode(io::IO, x::Tuple)",
    "    print(io, \"\x7b\\\"tuple\\\":\")",
    "    write_seq(io, x)",
    "    print(io, '\x7d')",
    "end",
    "",
    "encode(io::IO, x) = encode_handle(io, x)",
    "",
    "function encode_handle(io::IO, x)",
    "    print(io, \"\x7b\\\"handle\\\":\", store(x), \",\\\"type\\\":\")",
    "    write_string(io, x isa Function ? \"Function\" : string(typeof(x)))",
    "    print(io, '\x7d')",
    "end",
    "",
    "function reply(value)",
    "    io = IOBuffer()",
    "    print(io, \"\x7b\\\"ok\\\":\")",
    "    encode(io, value)",
    "    print(io, '\x7d')",
    "    return take!(io)",
    "end",
    "",
    "function failure(err)",
    "    while err isa LoadError",
    "        err = err.error",
    "    end",
    "    io = IOBuffer()",
    "    print(io, \"\x7b\\\"err\\\":\x7b\\\"type\\\":\")",
    "    write_string(io, string(nameof(typeof(err))))",
    "    print(io, \",\\\"message\\\":\")",
    "    write_string(io, sprint(showerror, err))",
    "    print(io, \"\x7d\x7d\")",
    "    return take!(io)",
    "end",
    "",
    "function serve(input::IO, output::IO)",
    "    while !eof(input)",
    "        header = split(readline(input))",
    "        n = parse(Int, header[1])",
    "        release((parse(Int, id) for id in header[2:end])...)",
    "        code = String(read(input, n))",
    "        bytes = try",
    "            reply(Base.invokelatest(include_string, Main, code, \"jlext\"))",
    "        catch err",
    "            failure(err)",
    "        end",
    "        write(output, bytes)",
    "        write(output, '\\n')",
    "        flush(output)",
    "    end",
    "end",
    "",
    "end # module __jlext__",
    "",
    "let output = stdout",
    "    redirect_stdout(stderr)",
    "    println(output, \"jlext ready\")",
    "    flush(output)",
    "    __jlext__.serve(stdin, output)",
    "end"
  ]

/-- The server script. -/
def serverScript : String :=
  "\n".intercalate serverLines ++ "\n"

end GuestBridge.Channel
